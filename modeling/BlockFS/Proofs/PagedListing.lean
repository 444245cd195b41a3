import BlockFS.Proofs.Answers
import BlockFS.Proofs.ListedNames

/-!
# Directories that are read in pages

A host reads a directory in pages: each request resumes at the offset that came with the last entry
it received.  An offset counts entries of the listing as it is when the request is answered.  A name
that is removed in between moves all later entries up by one place, so the walk passes over the
entry that would have come next, although it is still there.  Main statement: a walk in pages
returns the entries of the first listing in order and none twice, all of them if nothing is removed,
and it loses at most one for each name that is removed.
-/

namespace BlockFS

open Volume

/-! ## The children in front of a slot and behind it -/

/-- Whether an entry links something other than `.` and `..`. -/
def Entry.isChild (e : Entry) : Bool := !e.isFree && !e.isSelfOrParent

namespace EntryTable

variable (t : EntryTable) (slot : Fin slotCount) (e : Entry)

/-- The children in the slots in front of a slot. -/
def childrenBefore : List Entry := (t.toList.take slot).filter Entry.isChild

/-- The children in the slots behind a slot. -/
def childrenBehind : List Entry := (t.toList.drop (slot + 1)).filter Entry.isChild

theorem children_put : (t.put slot e).children =
    t.childrenBefore slot ++ ([e].filter Entry.isChild ++ t.childrenBehind slot) := by
  have hlt : slot.val < t.toList.length := by
    rw [Vector.length_toList]
    exact slot.isLt
  change (t.set slot e slot.isLt).toList.filter Entry.isChild = _
  rw [Vector.toList_set, List.set_eq_take_append_cons_drop, if_pos hlt, List.filter_append,
    ← List.singleton_append, List.filter_append]
  rfl

theorem children_eq_append : t.children =
    t.childrenBefore slot ++ ([t.entry slot].filter Entry.isChild ++ t.childrenBehind slot) := by
  rw [← t.children_put slot, t.put_entry]

end EntryTable

namespace Records

variable {l : Layout} {c : Records} {d i : Nat} {slot : Fin slotCount}

/-- What a directory lists: itself, its parent, and its children. -/
def listing (c : Records) (d : Nat) : List Child :=
  ⟨".", d, true⟩ :: ⟨"..", c.tree.parent d, true⟩ :: c.children d

/-- The children of a directory are different inodes. -/
theorem Tidy.pairwise_target (h : c.Tidy l) (hd : c.kind d = .directory) :
    (c.table d).children.Pairwise fun e e' => e.target ≠ e'.target := by
  refine (c.table d).pairwise_children.imp_of_mem fun he he' hslots htarget => ?_
  obtain ⟨slot, slot', hne, rfl, rfl⟩ := hslots
  obtain ⟨k, hk, hlinks⟩ := (mem_children_iff hd).mp he
  obtain ⟨k', hk', hlinks'⟩ := (mem_children_iff hd).mp he'
  have hl : c.tree.Links d slot ((c.table d).entry slot).target :=
    ⟨hd, rfl, hlinks.used, (congrArg Entry.isSelfOrParent hk).symm.trans hlinks.named⟩
  have hl' : c.tree.Links d slot' ((c.table d).entry slot').target :=
    ⟨hd, rfl, hlinks'.used, (congrArg Entry.isSelfOrParent hk').symm.trans hlinks'.named⟩
  rw [← htarget] at hl'
  exact hne (h.tree.once d slot d slot' _ hl hl').2

/-- Only a directory that is its own parent is listed twice. -/
theorem Tidy.pairwise_listing (h : c.Tidy l) (hd : c.kind d = .directory) :
    (c.listing d).Pairwise fun a b => a.inode = b.inode → a.inode = d := by
  refine .cons (fun _ _ _ => rfl) (.cons (fun x hx hinode => ?_) ?_)
  · obtain ⟨e, he, rfl⟩ := List.mem_map.mp hx
    obtain ⟨slot, -, hlinks⟩ := (mem_children_iff hd).mp he
    exact absurd hinode (h.tree.parent_ne_of_links hlinks)
  · exact List.pairwise_map.mpr ((h.pairwise_target hd).imp fun hne hinode => absurd hinode hne)

/-- What is removed from a directory leaves the listing, and the rest stays in order. -/
theorem Tidy.listing_unlink (h : c.Tidy l) (hr : c.tree.CanRemove d slot i) :
    ∃ front x back, c.listing d = front ++ x :: back ∧ x.inode = i ∧
      (c.unlink d slot i).listing d = front ++ back := by
  have hd : c.kind d = .directory := hr.links.directory
  have hne : d ≠ i := hr.ne h.tree
  have htarget : ((c.table d).entry slot).target = i := hr.links.target
  have hchild : ((c.table d).entry slot).isChild = true := by
    have hnamed : ((c.table d).entry slot).isSelfOrParent = false := hr.links.named
    rw [Entry.isChild, hnamed, Bool.not_false, Bool.and_true, Bool.not_eq_true',
      Entry.isFree_eq_false_iff, htarget]
    exact hr.links.used
  have hsplit : (c.table d).children = (c.table d).childrenBefore slot ++
      (c.table d).entry slot :: (c.table d).childrenBehind slot := by
    rw [(c.table d).children_eq_append slot, List.filter_cons_of_pos hchild]
    rfl
  have htree := h.tree_unlink hr
  have htable : (c.unlink d slot i).table d = (c.table d).put slot .empty := by
    change (c.unlink d slot i).tree.table d = _
    rw [htree, NameTree.remove]
    simp only
    rw [Function.update_of_ne hne, Function.update_self]
    rfl
  have hparent : (c.unlink d slot i).tree.parent d = c.tree.parent d := by
    rw [htree, hr.parent_remove h.tree hne]
  have hkept {e : Entry} (he : e.target ≠ i) : (c.unlink d slot i).childOf e = c.childOf e := by
    have hkind : (c.unlink d slot i).kind e.target = c.kind e.target := by
      change (c.unlink d slot i).tree.kind _ = _
      rw [htree, NameTree.kind_remove_of_ne he]
      rfl
    rw [childOf, childOf, hkind]
  have hpairwise := h.pairwise_target hd
  rw [hsplit, List.pairwise_append] at hpairwise
  obtain ⟨-, hbehind, hbefore⟩ := hpairwise
  have hfront : ((c.table d).childrenBefore slot).map (c.unlink d slot i).childOf
      = ((c.table d).childrenBefore slot).map c.childOf :=
    List.map_congr_left fun e he => hkept (htarget ▸ hbefore e he _ List.mem_cons_self)
  have hback : ((c.table d).childrenBehind slot).map (c.unlink d slot i).childOf
      = ((c.table d).childrenBehind slot).map c.childOf :=
    List.map_congr_left fun e he =>
      hkept (htarget ▸ (List.rel_of_pairwise_cons hbehind he).symm)
  refine ⟨⟨".", d, true⟩ :: ⟨"..", c.tree.parent d, true⟩ ::
      ((c.table d).childrenBefore slot).map c.childOf, c.childOf ((c.table d).entry slot),
    ((c.table d).childrenBehind slot).map c.childOf, ?_, htarget, ?_⟩
  · rw [listing, children, hsplit, List.map_append, List.map_cons]
    rfl
  · rw [listing, children, htable, hparent, EntryTable.children_put, List.map_append,
      List.map_append, hfront, hback]
    rfl

end Records

/-! ## Pages -/

/-- A child as a reply lists it at a place. -/
def Child.listed (c : Child) (place : Nat) : Kernel.ListedEntry :=
  ⟨c.inode, place + 1, c.directory, c.name⟩

namespace Kernel

variable {place : Nat} {cs : List Child} {es received : List ListedEntry} {b : ReplyBuffer}

/-- The child that a listed entry shows. -/
def ListedEntry.child (e : ListedEntry) : Child := ⟨e.name, e.inode, e.directory⟩

/-- Children as a reply lists them from a place on. -/
def numberedFrom (place : Nat) (cs : List Child) : List ListedEntry :=
  (cs.zipIdx place).map fun (c, place) => c.listed place

theorem entriesOf_eq (c : Records) (d : Nat) : entriesOf c d = numberedFrom 0 (c.listing d) := rfl

theorem numberedFrom_cons (c : Child) :
    numberedFrom place (c :: cs) = c.listed place :: numberedFrom (place + 1) cs := by
  rw [numberedFrom, List.zipIdx_cons, List.map_cons]
  rfl

@[simp]
theorem length_numberedFrom : (numberedFrom place cs).length = cs.length := by
  rw [numberedFrom, List.length_map, List.length_zipIdx]

@[simp]
theorem map_child_numberedFrom : (numberedFrom place cs).map ListedEntry.child = cs := by
  induction cs generalizing place with
  | nil => rfl
  | cons c cs ih =>
    rw [numberedFrom_cons, List.map_cons, ih]
    rfl

theorem drop_numberedFrom (n : Nat) :
    (numberedFrom place cs).drop n = numberedFrom (place + n) (cs.drop n) := by
  induction n generalizing place cs with
  | zero => rfl
  | succ n ih =>
    cases cs with
    | nil => rfl
    | cons c cs =>
      rw [numberedFrom_cons, List.drop_succ_cons, ih, List.drop_succ_cons, Nat.add_assoc,
        Nat.add_comm 1 n]

/-- A reply holds the entries at the front, as many as there is room for. -/
theorem exists_addAll_numberedFrom (b : ReplyBuffer) (held : List ListedEntry) (place : Nat)
    (cs : List Child) : ∃ n ≤ cs.length, b.addAll held (numberedFrom place cs)
      = held ++ numberedFrom place (cs.take n) := by
  induction cs generalizing place held with
  | nil => exact ⟨0, Nat.le_refl _, (List.append_nil held).symm⟩
  | cons c cs ih =>
    rw [numberedFrom_cons, ReplyBuffer.addAll]
    split
    · exact ⟨0, Nat.zero_le _, (List.append_nil held).symm⟩
    · obtain ⟨n, hn, hadded⟩ := ih (held ++ [c.listed place]) (place + 1)
      refine ⟨n + 1, Nat.succ_le_succ hn, ?_⟩
      rw [hadded, List.take_succ_cons, numberedFrom_cons, List.append_assoc, List.singleton_append]

/-- A reply is empty only if there is nothing left or no room for the first that is left. -/
theorem eq_nil_of_addAll (hroom : ∀ c ∈ cs, b.isFull [] (c.listed place) = false)
    (hnil : b.addAll [] (numberedFrom place cs) = []) : cs = [] := by
  cases cs with
  | nil => rfl
  | cons c cs =>
    have hadd : ¬ b.isFull [] (c.listed place) = true :=
      Bool.eq_false_iff.mp (hroom c List.mem_cons_self)
    obtain ⟨n, -, hadded⟩ := exists_addAll_numberedFrom b [c.listed place] (place + 1) cs
    rw [numberedFrom_cons, ReplyBuffer.addAll, if_neg hadd, List.nil_append, hadded] at hnil
    cases hnil

/-- Where a walk resumes: at the offset of the last entry that it received. -/
def resumeAt (received : List ListedEntry) : Nat :=
  (received.getLast?.map ListedEntry.offset).getD 0

theorem resumeAt_append (h : resumeAt received = place) :
    resumeAt (received ++ numberedFrom place cs) = place + cs.length := by
  rcases List.eq_nil_or_concat cs with rfl | ⟨front, c, rfl⟩
  · have hnone : numberedFrom place [] = [] := rfl
    rw [hnone, List.append_nil, h, List.length_nil, Nat.add_zero]
  · have hlast : numberedFrom place (front ++ [c])
        = numberedFrom place front ++ [c.listed (place + front.length)] := by
      rw [numberedFrom, List.zipIdx_append, List.map_append]
      rfl
    rw [resumeAt, List.concat_eq_append, hlast, ← List.append_assoc, List.getLast?_concat,
      List.length_append]
    rfl

end Kernel
/-! ## Requests that remove a name -/

section requests

variable {l : Layout} {s : Scene l} {history : History} {w : Service} {d p : Nat}
  {raw : List UInt8} {q : Kernel.Request}

/-- A request answers and leaves behind what its action does, and nothing that is open changes. -/
theorem Call.request_service_eq {r : Except Int Kernel.Reply} {t : ServerScene l}
    (hw : w.volume = Settled.state s history)
    (hdo : Does (Kernel.answer q) (ServerScene.mk s w.owner w.group) r t) :
    (Call.request q).answer w = Answer.told .refused .reply r ∧ ∃ history',
      (Call.request q).after w = ⟨Settled.state t.scene history', w.files, t.owner, t.group⟩ := by
  obtain ⟨volume, files, owner, group⟩ := w
  obtain rfl : volume = Settled.state s history := hw
  obtain ⟨history', hleft⟩ := hdo.leftBy_eq history
  exact ⟨congrArg (Answer.told .refused .reply) (hdo.resultOf_eq history), history',
    congrArg (fun u : Kernel.Server => Service.mk u.volume files u.owner u.group) hleft⟩

theorem Call.request_eq {r : Except Int Kernel.Reply} {t : ServerScene l}
    (hw : w.volume = Settled.state s history)
    (hdo : Does (Kernel.answer q) (ServerScene.mk s w.owner w.group) r t) :
    (Call.request q).answer w = Answer.told .refused .reply r ∧
      ∃ history', ((Call.request q).after w).volume = Settled.state t.scene history' := by
  obtain ⟨hanswer, history', hafter⟩ := Call.request_service_eq hw hdo
  exact ⟨hanswer, history', congrArg Service.volume hafter⟩

/-- A request that asks for the removal of a name, of a file or of a directory. -/
def Kernel.Request.IsRemoval (q : Kernel.Request) (d : Nat) (raw : List UInt8) : Prop :=
  q = .unlink d raw ∨ q = .removeDirectory d raw

/-- Once the name is found and the inode behind it is read, the kind decides. -/
theorem Kernel.does_removeKind_found {name : String} {i owner group : Nat} {record : Inode}
    {expected : Kind} {r : Except Int Unit} {t : ServerScene l}
    (hname : String.fromUTF8? ⟨raw.toArray⟩ = some name) (hp : p < UInt32.size)
    (hfind : Does (find p name) s (.ok i) s) (hrecord : Does (readInode i) s (.ok record) s)
    (hrest : Does (if record.kind = expected then onVolume (Volume.unlink p name)
      else if record.kind = .directory then throw Errno.isADirectory
      else throw Errno.notADirectory) (ServerScene.mk s owner group) r t) :
    Does (removeKind p raw expected) (ServerScene.mk s owner group) r t :=
  (does_entryName hname).bind ((does_inodeIndex hp).bind
    ((does_onVolume hfind).bind ((does_onVolume hrecord).bind hrest)))

/-- What is found under a name goes, or nothing changes. -/
theorem Kernel.does_removeKind (hm : s.mounted = true) (hs : s.Good) (hp : p < UInt32.size)
    (raw : List UInt8) (expected : Kind) (owner group : Nat) :
    ∃ r t, Does (removeKind p raw expected) (ServerScene.mk s owner group) r t ∧
      ((∃ e, r = .error e ∧ t.scene = s) ∨ r = .ok () ∧ ∃ name slot i,
        String.fromUTF8? ⟨raw.toArray⟩ = some name ∧
          (s.records.table p).find? name = some i ∧ Scene.Removes p slot i s t.scene) := by
  let start : ServerScene l := ⟨s, owner, group⟩
  cases hname : String.fromUTF8? ⟨raw.toArray⟩ with
  | none => exact ⟨_, start, (does_entryName_none hname).bind_error, .inl ⟨_, rfl, rfl⟩⟩
  | some name =>
    obtain ⟨r, hfind⟩ := quiet_find (s := s) p name
    cases r with
    | error e =>
      exact ⟨_, start, (does_entryName hname).bind ((does_inodeIndex hp).bind
        (does_onVolume hfind).bind_error), .inl ⟨_, rfl, rfl⟩⟩
    | ok i =>
      obtain ⟨r, hrecord⟩ := quiet_readInode (s := s) i
      cases r with
      | error e =>
        exact ⟨_, start, (does_entryName hname).bind ((does_inodeIndex hp).bind
          ((does_onVolume hfind).bind (does_onVolume hrecord).bind_error)),
          .inl ⟨_, rfl, rfl⟩⟩
      | ok record =>
        by_cases hkind : record.kind = expected
        · obtain ⟨r, s', hunlink, hr⟩ := Scene.unlink_found hm hs p name
          refine ⟨_, ⟨s', owner, group⟩, does_removeKind_found hname hp hfind hrecord
            (by rw [if_pos hkind]; exact does_onVolume hunlink), ?_⟩
          rcases hr with ⟨e, rfl, rfl⟩ | ⟨rfl, slot, i, hfound, hgone⟩
          · exact .inl ⟨_, rfl, rfl⟩
          · exact .inr ⟨rfl, name, slot, i, rfl, hfound, hgone⟩
        · obtain ⟨e, hthrow⟩ : ∃ e, Does (if record.kind = .directory then throw Errno.isADirectory
              else throw Errno.notADirectory : ServerM Unit) start (.error e) start := by
            split
            · exact ⟨_, Does.throw _ _⟩
            · exact ⟨_, Does.throw _ _⟩
          exact ⟨_, start, does_removeKind_found hname hp hfind hrecord
            (by rw [if_neg hkind]; exact hthrow), .inl ⟨_, rfl, rfl⟩⟩

/-- A removal answers that it is done and what is found under the name goes, or it is refused and
nothing changes. -/
theorem Kernel.does_removal (hm : s.mounted = true) (hs : s.Good) (hp : p < UInt32.size)
    (hq : q.IsRemoval p raw) (owner group : Nat) :
    ∃ r t, Does (answer q) (ServerScene.mk s owner group) r t ∧
      ((∃ e, r = .error e ∧ t.scene = s) ∨ r = .ok .done ∧ ∃ name slot i,
        String.fromUTF8? ⟨raw.toArray⟩ = some name ∧
          (s.records.table p).find? name = some i ∧ Scene.Removes p slot i s t.scene) := by
  have hdone (expected : Kind) : ∃ r t,
      Does (removeKind p raw expected >>= fun _ => pure Reply.done) (ServerScene.mk s owner group)
        r t ∧ ((∃ e, r = .error e ∧ t.scene = s) ∨ r = .ok .done ∧ ∃ name slot i,
          String.fromUTF8? ⟨raw.toArray⟩ = some name ∧
            (s.records.table p).find? name = some i ∧ Scene.Removes p slot i s t.scene) := by
    obtain ⟨r, t, hdo, ⟨e, rfl, hsame⟩ | ⟨rfl, hgone⟩⟩ :=
      does_removeKind hm hs hp raw expected owner group
    · exact ⟨_, t, hdo.bind_error, .inl ⟨e, rfl, hsame⟩⟩
    · exact ⟨_, t, hdo.bind (Does.pure _ _), .inr ⟨rfl, hgone⟩⟩
  rcases hq with rfl | rfl
  · exact hdone .file
  · exact hdone .directory

end requests

/-! ## Walks -/

/-- The request for the next page of a directory. -/
def Call.nextPage (d : Nat) (received : List Kernel.ListedEntry) (buffer : Kernel.ReplyBuffer) :
    Call :=
  .request (.readDirectory d (Kernel.resumeAt received) buffer)

/-- The name in a request leads to nothing but what was received before. -/
def Service.LeadsToReceived (w : Service) (d : Nat) (raw : List UInt8)
    (received : List Kernel.ListedEntry) : Prop :=
  ∀ name i, String.fromUTF8? ⟨raw.toArray⟩ = some name → w.volume.Answers (find d name) (.ok i) →
    ∃ e ∈ received, e.inode = i

/-- A walk over a directory in pages, whatever there is room for in each, from its start on: what was
received, and how many of the received names were removed on the way. -/
inductive Walk (d : Nat) (v : Service) : Service → List Kernel.ListedEntry → Nat → Prop where
  | start : Walk d v v [] 0
  | page {w : Service} {received page : List Kernel.ListedEntry} {gone : Nat}
      (buffer : Kernel.ReplyBuffer) (h : Walk d v w received gone)
      (answered : (Call.nextPage d received buffer).answer w = .ok (.reply (.directory page))) :
      Walk d v ((Call.nextPage d received buffer).after w) (received ++ page) gone
  | removed {w : Service} {received : List Kernel.ListedEntry} {gone : Nat} {q : Kernel.Request}
      {raw : List UInt8} (h : Walk d v w received gone) (removal : q.IsRemoval d raw)
      (known : w.LeadsToReceived d raw received)
      (answered : (Call.request q).answer w = .ok (.reply .done)) :
      Walk d v ((Call.request q).after w) received (gone + 1)
  | refused {w : Service} {received : List Kernel.ListedEntry} {gone : Nat} {q : Kernel.Request}
      {raw : List UInt8} {refusal : Refusal} (h : Walk d v w received gone)
      (removal : q.IsRemoval d raw) (answered : (Call.request q).answer w = .error refusal) :
      Walk d v ((Call.request q).after w) received gone

/-- How a walk stands to the listing that it began with: it received entries in their order, and as
many places as names were removed were passed over. -/
structure Kernel.Received (first : List Child) (received : List ListedEntry) (gone : Nat) : Prop where
  place : resumeAt received = received.length
  sublist : (received.map ListedEntry.child).Sublist (first.take (received.length + gone))
  passed : ∃ lost : List Child, lost.length ≤ gone ∧
    (received.map ListedEntry.child ++ lost).Perm (first.take (received.length + gone))

namespace Kernel.Received

variable {first : List Child} {received : List ListedEntry} {gone : Nat}

theorem start (first : List Child) : Received first [] 0 :=
  ⟨rfl, List.nil_sublist _, [], Nat.le_refl _, .nil⟩

/-- A page takes the entries that come next. -/
theorem page (h : Received first received gone) {n : Nat}
    (hn : n ≤ (first.drop (received.length + gone)).length) :
    Received first (received ++
      numberedFrom received.length ((first.drop (received.length + gone)).take n)) gone := by
  let next := (first.drop (received.length + gone)).take n
  have hlength : (received ++ numberedFrom received.length next).length = received.length + n := by
    rw [List.length_append, length_numberedFrom, List.length_take, Nat.min_eq_left hn]
  have htake : first.take (received.length + n + gone)
      = first.take (received.length + gone) ++ next := by
    rw [Nat.add_right_comm, List.take_add]
  obtain ⟨lost, hlost, hperm⟩ := h.passed
  refine ⟨?_, ?_, lost, hlost, ?_⟩
  · rw [resumeAt_append h.place, hlength, List.length_take, Nat.min_eq_left hn]
  · rw [hlength, htake, List.map_append, map_child_numberedFrom]
    exact h.sublist.append_right next
  · rw [hlength, htake, List.map_append, map_child_numberedFrom]
    have hswap : (received.map ListedEntry.child ++ next ++ lost).Perm
        (received.map ListedEntry.child ++ lost ++ next) := by
      rw [List.append_assoc, List.append_assoc]
      exact List.perm_append_comm.append_left _
    exact hswap.trans (hperm.append_right next)

/-- A removal passes over the entry that comes next. -/
theorem removed (h : Received first received gone) : Received first received (gone + 1) := by
  let next := (first.drop (received.length + gone)).take 1
  have htake : first.take (received.length + (gone + 1))
      = first.take (received.length + gone) ++ next := by
    rw [← Nat.add_assoc, List.take_add]
  obtain ⟨lost, hlost, hperm⟩ := h.passed
  refine ⟨h.place, ?_, lost ++ next, ?_, ?_⟩
  · rw [htake]
    exact h.sublist.trans (List.sublist_append_left _ _)
  · rw [List.length_append]
    exact Nat.add_le_add hlost (List.length_take_le _ _)
  · rw [htake, ← List.append_assoc]
    exact hperm.append_right next

end Kernel.Received

section walks

variable {l : Layout} {s : Scene l} {history : History} {v w : Service} {d gone : Nat}
  {first : List Child} {received : List Kernel.ListedEntry}

/-- What is left of a listing for a walk. -/
def Scene.LeavesTo (s : Scene l) (d : Nat) (first : List Child) (place gone : Nat) : Prop :=
  (s.records.listing d).drop place = first.drop (place + gone)

/-- The next page holds what comes next in the first listing, as much as there is room for. -/
theorem Call.nextPage_eq (hw : w.volume = Settled.state s history) (hm : s.mounted = true)
    (hs : s.Good) (hd : s.records.kind d = .directory)
    (hplace : Kernel.resumeAt received = received.length)
    (hleft : s.LeavesTo d first received.length gone) (buffer : Kernel.ReplyBuffer) :
    (nextPage d received buffer).answer w = .ok (.reply (.directory (buffer.addAll []
        (Kernel.numberedFrom received.length (first.drop (received.length + gone)))))) ∧
      ∃ history', ((nextPage d received buffer).after w).volume = Settled.state s history' := by
  have hread := Kernel.does_readDirectory hm hs hd (received.length : Int) buffer w.owner w.group
  have hbehind : Kernel.behind (received.length : Int) (Kernel.entriesOf s.records d)
      = Kernel.numberedFrom received.length (first.drop (received.length + gone)) := by
    change (Kernel.entriesOf s.records d).drop received.length = _
    rw [Kernel.entriesOf_eq, Kernel.drop_numberedFrom, hleft, Nat.zero_add]
  rw [hbehind] at hread
  rw [nextPage, hplace]
  exact Call.request_eq hw hread

/-- A removal of something that was received moves what is left up by one place. -/
theorem Scene.Removes.leavesTo {slot : Fin slotCount} {i : Nat} {s' : Scene l}
    (h : Removes d slot i s s') (hs : s.Good)
    (hpairwise : first.Pairwise fun a b => a.inode = b.inode → a.inode = d)
    (hreceived : Kernel.Received first received gone) (hi : ∃ e ∈ received, e.inode = i)
    (hleft : s.LeavesTo d first received.length gone) :
    s'.LeavesTo d first received.length (gone + 1) := by
  obtain ⟨front, x, back, hlisting, hx, hlisting'⟩ := hs.tidy.listing_unlink h.removable
  obtain ⟨e, he, hei⟩ := hi
  rw [LeavesTo, hlisting] at hleft
  -- what is removed stands in front of what is left, for it was received before
  have hlt : front.length < received.length := by
    by_contra hge
    have hmem : x ∈ first.drop (received.length + gone) := by
      rw [← hleft, List.drop_append_of_le_length (Nat.le_of_not_lt hge)]
      exact List.mem_append_right _ List.mem_cons_self
    have hmem' : e.child ∈ first.take (received.length + gone) :=
      hreceived.sublist.subset (List.mem_map_of_mem he)
    rw [← List.take_append_drop (received.length + gone) first, List.pairwise_append] at hpairwise
    have hroot := hpairwise.2.2 e.child hmem' x hmem (hei.trans hx.symm)
    exact (h.removable.ne hs.tidy.tree) (hroot.symm.trans hei)
  obtain ⟨n, hn⟩ := Nat.exists_eq_add_of_lt hlt
  have hbehind (xs : List Child) (m : Nat) :
      (front ++ xs).drop (front.length + m) = xs.drop m := by
    rw [List.drop_append, List.drop_of_length_le (Nat.le_add_right _ _), List.nil_append,
      Nat.add_sub_cancel_left]
  rw [hn, Nat.add_assoc, hbehind, List.drop_succ_cons] at hleft
  rw [LeavesTo, h.records, hlisting', hn, Nat.add_assoc, hbehind, ← List.drop_drop, hleft,
    List.drop_drop]
  rfl

/-- How a walk stands: its volume is a good scene, and what was received and what is left make up
the listing that it began with. -/
structure Walk.Stands (l : Layout) (d : Nat) (first : List Child) (w : Service)
    (received : List Kernel.ListedEntry) (gone : Nat) : Prop where
  scene : ∃ (s : Scene l) (history : History), w.volume = Settled.state s history ∧ s.Good ∧
    s.mounted = true ∧ s.records.kind d = .directory ∧
    s.LeavesTo d first received.length gone
  received : Kernel.Received first received gone

/-- Each step of a walk keeps how it stands. -/
theorem Walk.stands (hw : Walk d v w received gone) (hv : v.volume = Settled.state s history)
    (hm : s.mounted = true) (hs : s.Good) (hd : s.records.kind d = .directory) :
    Stands l d (s.records.listing d) w received gone := by
  have hsmall {s : Scene l} (hd : s.records.kind d = .directory) : d < UInt32.size :=
    Nat.lt_trans (l.small_of_lt (r := .inode) (Scene.lt_count_of_used
      (Records.used_of_kind_ne (Records.ne_free_of_directory hd)))) (by decide)
  have hpairwise := hs.tidy.pairwise_listing hd
  induction hw with
  | start => exact ⟨⟨s, history, hv, hs, hm, hd, rfl⟩, .start _⟩
  | @page w received page gone buffer _ answered ih =>
    obtain ⟨⟨s', history, hw, hs', hm', hd', hleft⟩, hreceived⟩ := ih
    obtain ⟨hanswer, history', hafter⟩ :=
      Call.nextPage_eq hw hm' hs' hd' hreceived.place hleft buffer
    let rest := (s.records.listing d).drop (received.length + gone)
    obtain ⟨n, hn, hadded⟩ : ∃ n ≤ rest.length,
        buffer.addAll [] (Kernel.numberedFrom received.length rest)
          = Kernel.numberedFrom received.length (rest.take n) :=
      Kernel.exists_addAll_numberedFrom buffer [] _ _
    rw [hanswer, hadded] at answered
    injection answered with hreply
    injection hreply with hpage
    injection hpage with hpage
    subst hpage
    refine ⟨⟨s', history', hafter, hs', hm', hd', ?_⟩, hreceived.page hn⟩
    rw [Scene.LeavesTo, List.length_append, Kernel.length_numberedFrom, List.length_take,
      Nat.min_eq_left hn, ← List.drop_drop, hleft, List.drop_drop, Nat.add_right_comm]
  | @removed w received gone q raw _ removal known answered ih =>
    obtain ⟨⟨s', history, hw, hs', hm', hd', hleft⟩, hreceived⟩ := ih
    obtain ⟨r, t, hdo, hr⟩ := Kernel.does_removal hm' hs' (hsmall hd') removal w.owner w.group
    obtain ⟨hanswer, history', hafter⟩ := Call.request_eq hw hdo
    rw [hanswer] at answered
    rcases hr with ⟨e, rfl, -⟩ | ⟨rfl, name, slot, i, hname, hfound, hgone⟩
    · cases answered
    · have hfind := Volume.does_find hm' hs'.tidy.toExact d name
      rw [hfound] at hfind
      have hi := known name i hname (by rw [hw]; exact hfind.answers history)
      refine ⟨⟨t.scene, history', hafter, hgone.good hs', hgone.mounted.trans hm', ?_,
        hgone.leavesTo hs' hpairwise hreceived hi hleft⟩, hreceived.removed⟩
      rw [hgone.kind_eq, if_neg (hgone.removable.ne hs'.tidy.tree)]
      exact hd'
  | @refused w received gone q raw refusal _ removal answered ih =>
    obtain ⟨⟨s', history, hw, hs', hm', hd', hleft⟩, hreceived⟩ := ih
    obtain ⟨r, t, hdo, hr⟩ := Kernel.does_removal hm' hs' (hsmall hd') removal w.owner w.group
    obtain ⟨hanswer, history', hafter⟩ := Call.request_eq hw hdo
    rw [hanswer] at answered
    rcases hr with ⟨e, -, hsame⟩ | ⟨rfl, -⟩
    · rw [hsame] at hafter
      exact ⟨⟨s', history', hafter, hs', hm', hd', hleft⟩, hreceived⟩
    · cases answered

end walks

/-- What a walk in pages tells of the listing that it began with.  Nothing is received twice, and
places are passed over only as names are removed; the next page goes on behind both.  Once a page
with room for any entry is empty, all entries were received but for those that were passed over. -/
structure Walk.Tells (d : Nat) (first : List Child) (w : Service)
    (received : List Kernel.ListedEntry) (gone : Nat) : Prop where
  once : (received.map Kernel.ListedEntry.child).Sublist first
  passed : ∃ lost : List Child, lost.length ≤ gone ∧
    (received.map Kernel.ListedEntry.child ++ lost).Perm (first.take (received.length + gone))
  next : ∀ buffer, (Call.nextPage d received buffer).answer w =
    .ok (.reply (.directory (buffer.addAll []
      (Kernel.numberedFrom received.length (first.drop (received.length + gone))))))
  ended : ∀ buffer, (∀ c ∈ first, buffer.isFull [] (c.listed received.length) = false) →
    (Call.nextPage d received buffer).answer w = .ok (.reply (.directory [])) →
      ∃ lost : List Child, lost.length ≤ gone ∧
        (received.map Kernel.ListedEntry.child ++ lost).Perm first

theorem Walk.Stands.tells {l : Layout} {d gone : Nat} {first : List Child} {w : Service}
    {received : List Kernel.ListedEntry} (h : Stands l d first w received gone) :
    Tells d first w received gone := by
  obtain ⟨⟨s, history, hw, hs, hm, hd, hleft⟩, hreceived⟩ := h
  have hnext (buffer : Kernel.ReplyBuffer) :=
    (Call.nextPage_eq hw hm hs hd hreceived.place hleft buffer).1
  refine ⟨hreceived.sublist.trans (List.take_sublist _ _), hreceived.passed, hnext, ?_⟩
  intro buffer hroom hempty
  rw [hnext] at hempty
  injection hempty with hreply
  injection hreply with hpage
  injection hpage with hpage
  have hnil := Kernel.eq_nil_of_addAll (fun c hc => hroom c (List.mem_of_mem_drop hc)) hpage
  obtain ⟨lost, hlost, hperm⟩ := hreceived.passed
  rw [List.take_of_length_le (List.drop_eq_nil_iff.mp hnil)] at hperm
  exact ⟨lost, hlost, hperm⟩

/-- Of every directory of a volume that calls lead to, a walk in pages returns the entries that were
listed when it began, none twice, and all but at most one for each name that is removed on the
way. -/
theorem Reached.pages_tell_listing {g : Geometry} {v w : Service} {logs : Logs} {l : Layout}
    (h : Reached g v logs) (hl : Layout.ofGeometry g = .ok l) (hm : v.volume.isMounted = true)
    {d : Nat} (hd : (v.volume.records l).kind d = .directory)
    {received : List Kernel.ListedEntry} {gone : Nat} (hw : Walk d v w received gone) :
    Walk.Tells d ((v.volume.records l).listing d) w received gone := by
  obtain ⟨s, history, hvolume, hrecords, hs, -⟩ := h.exists_scene hl
  rw [hvolume, isMounted_state] at hm
  rw [hrecords] at hd ⊢
  exact (hw.stands hvolume hm hs hd).tells

/-! ## Two files on a new volume -/

/-- What is put behind all slots in use is listed last. -/
theorem EntryTable.children_put_last {t : EntryTable} {slot : Fin slotCount} {e : Entry}
    (hfree : ∀ j, slot ≤ j → (t.entry j).target = 0) :
    (t.put slot e).children = t.children ++ [e].filter Entry.isChild := by
  have hnone (j : Fin slotCount) (hj : slot ≤ j) : ¬ (t.entry j).isChild = true := by
    rw [Entry.isChild, Entry.isFree_iff.mpr (hfree j hj)]
    exact Bool.false_ne_true
  have hbehind : t.childrenBehind slot = [] := by
    refine List.filter_eq_nil_iff.mpr fun x hx => ?_
    obtain ⟨k, hk, rfl⟩ := List.mem_iff_getElem.mp hx
    rw [List.getElem_drop]
    obtain ⟨j, hj, hentry⟩ := exists_slot (t := t) (List.getElem?_eq_getElem (by
      rw [List.length_drop] at hk
      omega : slot.val + 1 + k < t.toList.length))
    rw [← hentry]
    exact hnone j (Fin.le_def.mpr (by omega))
  rw [children_put, t.children_eq_append slot, hbehind,
    List.filter_cons_of_neg (hnone slot (Nat.le_refl _))]
  simp only [List.filter_nil, List.append_nil]

theorem NameTree.HoldsNothing.children_eq {t : EntryTable} {i p : Nat} (h : HoldsNothing t i p) :
    t.children = [] := by
  refine List.filter_eq_nil_iff.mpr fun x hx hchild => ?_
  obtain ⟨k, hk⟩ := List.getElem?_of_mem hx
  obtain ⟨slot, -, rfl⟩ := EntryTable.exists_slot hk
  rw [Bool.and_eq_true, Bool.not_eq_true', Bool.not_eq_true', Entry.isFree_eq_false_iff] at hchild
  exact hchild.1 (h.target_eq_zero hchild.2)

namespace Scene

variable {l : Layout} {s s' : Scene l} {p i d : Nat} {n : StoredName} {slot : Fin slotCount}

/-- A new file takes the first free slot. -/
theorem Makes.table_eq (w : Makes p i n s s') (hs : s.Good)
    (hslot : (s.records.table p).findFinIdx? Entry.isFree = some slot) :
    s'.records.table p = (s.records.table p).put slot ⟨.ofNat i, n⟩ := by
  obtain ⟨slot', hslot', ha, hrecords⟩ := w.linked
  obtain rfl := Option.some.inj (hslot'.symm.trans hslot)
  change s'.records.tree.table p = _
  rw [hrecords, hs.tidy.tree_linkFile ha (Inode.kind_new _ _) (fun _ => Inode.block?_new _ _)
    w.inode_lt, NameTree.add]
  simp only
  rw [Function.update_of_ne ha.ne, Function.update_self]
  rfl

/-- A child that is a file can be removed by its name. -/
theorem does_unlink_child {e : Entry} {name : String} (hm : s.mounted = true) (hs : s.Good)
    (he : e ∈ (s.records.table d).children) (hd : s.records.kind d = .directory)
    (hname : StoredName.encode name = .ok e.name) (hdot : isSelfOrParent name = false)
    (hfile : s.records.kind e.target = .file) :
    ∃ slot s', Does (unlink d name) s (.ok ()) s' ∧ (s.records.table d).entry slot = e ∧
      Removes d slot e.target s s' := by
  obtain ⟨slot, rfl, hlinks⟩ := (Records.mem_children_iff hd).mp he
  have hslot : (s.records.table d).slotOf? name = some slot := by
    rw [EntryTable.slotOf?_eq hname]
    exact (hs.tidy.tree.unique d hd).findFinIdx?_eq hlinks.used
  obtain ⟨s', hdo, hgone⟩ := does_unlink_removes hm hs hdot hslot hlinks fun hdir =>
    Kind.noConfusion (hfile.symm.trans hdir)
  exact ⟨slot, s', hdo, rfl, hgone⟩

/-- A child is kept under the name that its entry holds. -/
theorem map_child {e : Entry} (hs : s.Good) (hd : s.records.kind d = .directory)
    (he : e ∈ (s.records.table d).children) : s.maps.map d e.name = some e.target := by
  obtain ⟨slot, rfl, hlinks⟩ := (Records.mem_children_iff hd).mp he
  exact (hs.tidy.tree.unique d hd).lookup_eq_some_iff.mpr ⟨slot, rfl, hlinks.used, rfl⟩

/-- What the map of a directory links is found. -/
theorem does_find_of_map {name : String} (hm : s.mounted = true) (hs : s.Good)
    (hn : StoredName.encode name = .ok n) (hi : s.maps.map d n = some i) :
    Does (find d name) s (.ok i) s := by
  have hfind := does_find hm hs.tidy.toExact d name
  have hfound : (s.records.table d).find? name = some i := by
    rw [EntryTable.find?_eq hn]
    exact hi
  rwa [hfound] at hfind

/-- The root holds two files, `a` and `b`, in its first slots. -/
structure HoldsBoth (s : Scene l) : Prop where
  good : s.Good
  mounted : s.mounted = true
  kind : s.records.kind 2 = .file ∧ s.records.kind 3 = .file
  children : (s.records.table rootInode).children
    = [⟨2, .ofList nameWidth [0x61]⟩, ⟨3, .ofList nameWidth [0x62]⟩]

/-- The first two files of a new volume are kept one after the other. -/
theorem New.does_makeFile_both (h : s.New) (hcount : 3 < l.inodeCount) :
    ∃ s₁ s₂, Does (makeFile rootInode "a") s (.ok 2) s₁ ∧
      Does (makeFile rootInode "b") s₁ (.ok 3) s₂ ∧ s₂.HoldsBoth := by
  obtain ⟨s₁, hmake, hmakes⟩ := h.does_makeFile (by omega) StoredName.encode_a (by decide)
  have hs₁ := hmakes.good h.good
  have hm₁ : s₁.mounted = true := hmakes.mounted.trans h.mounted
  have hroot₁ : s₁.records.kind rootInode = .directory := hs₁.tidy.tree.root
  have htable := hmakes.table_eq h.good
    (h.empty.findFinIdx?_isFree (by decide) (by decide))
  have hentry (j : Fin slotCount) := EntryTable.entry_put (t := s.records.table rootInode) 2 j
    ⟨.ofNat 2, .ofList nameWidth [0x61]⟩
  rw [← htable] at hentry
  have hrest (j : Fin slotCount) (hj : 3 ≤ j) :
      ((s₁.records.table rootInode).entry j).target = 0 := by
    have hlt : 2 < j := Nat.lt_of_succ_le hj
    rw [hentry, if_neg (Fin.ne_of_gt hlt)]
    exact h.empty.rest j (Nat.le_of_lt hlt)
  have hslot : (s₁.records.table rootInode).findFinIdx? Entry.isFree = some 3 := by
    refine findFinIdx?_eq_some_iff.mpr ⟨Entry.isFree_iff.mpr (hrest 3 (Nat.le_refl _)), ?_⟩
    intro j hj
    change ((s₁.records.table rootInode).entry j).isFree = false
    rw [Entry.isFree_eq_false_iff, hentry]
    split
    · decide
    · next hne =>
      have hlt : j.val < 2 := Nat.lt_of_le_of_ne (Nat.le_of_lt_succ hj) (Fin.val_ne_of_ne hne)
      exact h.good.tidy.tree.target_ne_of_lt_two h.good.tidy.tree.root hlt
  have hfree : s₁.records.lowestFree .inode l.inodeCount = some 3 := by
    refine Records.lowestFree_eq_some_iff.mpr ⟨by decide, hcount, ?_, fun j hpos hlt => ?_⟩
    · rw [← Bool.not_eq_true, hs₁.tidy.inodes.used_iff, hmakes.kind_eq, h.kind]
      decide
    · rw [hs₁.tidy.inodes.used_iff, hmakes.kind_eq, h.kind]
      obtain rfl | rfl : j = rootInode ∨ j = 2 := by
        simp only [rootInode]
        omega
      · decide
      · decide
  have hnone : (s₁.records.table rootInode).lookup (.ofList nameWidth [0x62]) = none := by
    change s₁.maps.map rootInode _ = none
    rw [hmakes.maps_eq h.good, NameMaps.link]
    simp only
    rw [Function.update_of_ne (by decide), Function.update_self,
      Function.update_of_ne (by decide)]
    exact h.empty.lookup_eq_none (by decide)
  obtain ⟨s₂, hmake', hmakes'⟩ :=
    does_makeFile_makes hm₁ hs₁ StoredName.encode_b hroot₁ hnone hfree hslot
  refine ⟨s₁, s₂, hmake, hmake', hmakes'.good hs₁, hmakes'.mounted.trans hm₁, ⟨?_, ?_⟩, ?_⟩
  · rw [hmakes'.kind_eq, if_neg (by decide), hmakes.kind_eq, if_pos rfl]
  · rw [hmakes'.kind_eq, if_pos rfl]
  · rw [hmakes'.table_eq hs₁ hslot, EntryTable.children_put_last hrest, htable,
      EntryTable.children_put_last fun j hj => h.empty.rest j hj, h.empty.children_eq]
    rfl

namespace HoldsBoth

variable (h : s.HoldsBoth)

include h

theorem root : s.records.kind rootInode = .directory := h.good.tidy.tree.root

theorem listing_eq : s.records.listing rootInode =
    [⟨".", 1, true⟩, ⟨"..", 1, true⟩, ⟨"a", 2, false⟩, ⟨"b", 3, false⟩] := by
  have hparent : s.records.tree.parent rootInode = rootInode := h.good.tidy.tree.rootParent
  rw [Records.listing, Records.children, h.children, hparent]
  simp only [List.map_cons, List.map_nil, Records.childOf]
  rw [show Entry.target ⟨2, .ofList nameWidth [0x61]⟩ = 2 from rfl,
    show Entry.target ⟨3, .ofList nameWidth [0x62]⟩ = 3 from rfl, h.kind.1, h.kind.2]
  rfl

theorem mem_a : ⟨2, .ofList nameWidth [0x61]⟩ ∈ (s.records.table rootInode).children := by
  rw [h.children]
  exact List.mem_cons_self

theorem mem_b : ⟨3, .ofList nameWidth [0x62]⟩ ∈ (s.records.table rootInode).children := by
  rw [h.children]
  exact List.mem_cons_of_mem _ List.mem_cons_self

theorem map_a : s.maps.map rootInode (.ofList nameWidth [0x61]) = some 2 := by
  have hmap := map_child h.good h.root h.mem_a
  exact hmap

theorem map_b : s.maps.map rootInode (.ofList nameWidth [0x62]) = some 3 := by
  have hmap := map_child h.good h.root h.mem_b
  exact hmap

theorem does_find_a : Does (find rootInode "a") s (.ok 2) s :=
  does_find_of_map h.mounted h.good StoredName.encode_a h.map_a

/-- A request can remove `a`, and `b` is found before and after. -/
theorem does_unlink_a (owner group : Nat) : ∃ s',
    Does (Kernel.answer (.unlink rootInode [0x61])) (ServerScene.mk s owner group) (.ok .done)
      (ServerScene.mk s' owner group) ∧ Does (find rootInode "b") s' (.ok 3) s' := by
  obtain ⟨slot, s', hunlink, hentry, hgone⟩ :=
    does_unlink_child h.mounted h.good h.mem_a h.root StoredName.encode_a (by decide) h.kind.1
  have hused : s.records.used .inode 2 = true :=
    Records.used_of_kind_ne (Records.ne_free_of_file h.kind.1)
  refine ⟨s', ?_, ?_⟩
  · refine (Kernel.does_removeKind_found (r := .ok ()) (t := ⟨s', owner, group⟩) rfl (by decide)
      h.does_find_a (Volume.does_readInode h.mounted hused) ?_).bind (Does.pure _ _)
    rw [if_pos ((Records.kind_of_used hused).symm.trans h.kind.1)]
    exact Kernel.does_onVolume hunlink
  · refine does_find_of_map (hgone.mounted.trans h.mounted) (hgone.good h.good)
      StoredName.encode_b ?_
    rw [hgone.maps_eq h.good (congrArg Entry.name hentry), NameMaps.unlink]
    simp only
    rw [Function.update_of_ne (by decide), Function.update_self, Function.update_of_ne (by decide)]
    exact h.map_b

end HoldsBoth

end Scene

/-! ## A removal between two pages -/

namespace Service

/-- What the first page of the root shows where it holds `a` and `b` and there is room for three
entries. -/
def firstPage : List Kernel.ListedEntry :=
  [⟨1, 1, true, "."⟩, ⟨1, 2, true, ".."⟩, ⟨2, 3, false, "a"⟩]

/-- The service after this page was read and `a` was removed. -/
def removedBetween (v : Service) : Service :=
  (Call.request (.unlink rootInode [0x61])).after
    ((Call.nextPage rootInode [] (.ofSize 96)).after v)

variable {l : Layout} {s : Scene l} {history : History} {v : Service}

/-- After the first page `a` is removed; the next page is empty, and `b` is still there. -/
theorem walk_removedBetween (hv : v.volume = Settled.state s history) (h : s.HoldsBoth) :
    Walk rootInode v v.removedBetween firstPage 1 ∧
      v.removedBetween.volume.Answers (find rootInode "b") (.ok 3) ∧
      (Call.nextPage rootInode firstPage (.ofSize 96)).answer v.removedBetween
        = .ok (.reply (.directory [])) := by
  have hleft : s.LeavesTo rootInode (s.records.listing rootInode) 0 0 := rfl
  obtain ⟨hpage, h₁, hread⟩ := Call.nextPage_eq hv h.mounted h.good h.root
    (show Kernel.resumeAt [] = _ from rfl) hleft (.ofSize 96)
  rw [h.listing_eq] at hpage
  let w := (Call.nextPage rootInode [] (.ofSize 96)).after v
  obtain ⟨s', hremove, hfind⟩ := h.does_unlink_a w.owner w.group
  obtain ⟨hanswer, h₂, hafter⟩ := Call.request_eq hread hremove
  have hwalk : Walk rootInode v v.removedBetween firstPage 1 := by
    refine .removed (.page (.ofSize 96) .start hpage) (.inl rfl) ?_ hanswer
    intro name i hname hfound
    obtain rfl : "a" = name := Option.some.inj hname
    rw [hread] at hfound
    obtain ⟨h₃, hfound⟩ := hfound
    obtain rfl := Except.ok.inj (h.does_find_a.eq_ok hfound)
    exact ⟨⟨2, 3, false, "a"⟩, by decide, rfl⟩
  have hnext := (hwalk.stands hv h.mounted h.good h.root).tells.next (.ofSize 96)
  rw [h.listing_eq] at hnext
  refine ⟨hwalk, ?_, hnext⟩
  rw [removedBetween, hafter]
  exact hfind.answers h₂

/-- A new floppy disk with the files `a` and `b`. -/
def bothFiles : Service :=
  (Call.edit (.makeFile rootInode "b")).after
    ((Call.edit (.makeFile rootInode "a")).after Service.floppy)

theorem bothFiles_eq : (∃ logs, Reached .floppy bothFiles logs) ∧
    ∃ (s : Scene .floppy) (history : History), bothFiles.volume = Settled.state s history ∧
      s.HoldsBoth := by
  refine ⟨⟨_, (reached_floppy.call (.edit (.makeFile rootInode "a"))).call
    (.edit (.makeFile rootInode "b"))⟩, ?_⟩
  obtain ⟨s, h₀, hfloppy, hnew⟩ := Service.floppy_eq
  obtain ⟨s₁, s₂, hmake, hmake', hboth⟩ := hnew.does_makeFile_both (by decide)
  obtain ⟨h₁, hleft⟩ := Does.leftBy_eq (x := (Edit.makeFile rootInode "a").action) hmake h₀
  obtain ⟨h₂, hleft'⟩ := Does.leftBy_eq (x := (Edit.makeFile rootInode "b").action) hmake' h₁
  refine ⟨s₂, h₂, ?_, hboth⟩
  change leftBy _ (leftBy _ Service.floppy.volume) = _
  rw [hfloppy]
  change leftBy _ (leftBy _ (Settled.state s h₀)) = _
  rw [hleft, hleft']

end Service

open Service in
/-- A page of the root is received, `a` is removed, and the next page is empty, although `b` was
there all the time and was not received. -/
theorem Reached.removal_loses_entry_floppy :
    (∃ logs, Reached .floppy bothFiles logs) ∧ bothFiles.volume.isMounted = true ∧
      Walk rootInode bothFiles bothFiles.removedBetween firstPage 1 ∧
      bothFiles.volume.Answers (find rootInode "b") (.ok 3) ∧
      bothFiles.removedBetween.volume.Answers (find rootInode "b") (.ok 3) ∧
      (∀ e ∈ firstPage, e.inode ≠ 3) ∧
      (Call.nextPage rootInode firstPage (.ofSize 96)).answer bothFiles.removedBetween
        = .ok (.reply (.directory [])) := by
  obtain ⟨hreached, s, history, hv, hboth⟩ := bothFiles_eq
  obtain ⟨hwalk, hkept, hempty⟩ := walk_removedBetween hv hboth
  refine ⟨hreached, ?_, hwalk, ?_, hkept, by decide, hempty⟩
  · rw [hv, isMounted_state, hboth.mounted]
  · rw [hv]
    exact (Scene.does_find_of_map hboth.mounted hboth.good StoredName.encode_b hboth.map_b).answers
      history

open Service in
/-- The same walk: three entries are received, one of them is removed, and one is passed over. -/
theorem Reached.pages_tell_listing_floppy :
    ∃ logs, Reached .floppy bothFiles logs ∧ Layout.ofGeometry .floppy = .ok .floppy ∧
      bothFiles.volume.isMounted = true ∧
      (bothFiles.volume.records .floppy).kind rootInode = .directory ∧
      Walk rootInode bothFiles bothFiles.removedBetween firstPage 1 ∧
      Walk.Tells rootInode ((bothFiles.volume.records .floppy).listing rootInode)
        bothFiles.removedBetween firstPage 1 := by
  obtain ⟨⟨logs, hreached⟩, s, history, hv, hboth⟩ := bothFiles_eq
  have hmounted : bothFiles.volume.isMounted = true := by rw [hv, isMounted_state, hboth.mounted]
  have hroot : (bothFiles.volume.records .floppy).kind rootInode = .directory :=
    (hreached.tidy Layout.ofGeometry_floppy).tree.root
  obtain ⟨hwalk, -, -⟩ := walk_removedBetween hv hboth
  exact ⟨logs, hreached, Layout.ofGeometry_floppy, hmounted, hroot, hwalk,
    hreached.pages_tell_listing Layout.ofGeometry_floppy hmounted hroot hwalk⟩

end BlockFS
