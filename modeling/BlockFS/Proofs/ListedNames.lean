import BlockFS.Proofs.FileContents
import BlockFS.Proofs.LossyText
import BlockFS.Proofs.NamesExact

/-!
# Listed names are looked up

A listing shows each child of a directory under the first 14 bytes of the name that it was given,
read as text.  Where these bytes are UTF-8, the text is found again and leads to the child, and no two
children show the same one.  Where the cut at 14 bytes broke a character, its first bytes are shown
as one replacement character, and the text may be found nowhere.
-/

namespace BlockFS

open Volume
open StoredName (Storable key)

/-! ## Stored names and their bytes -/

namespace StoredName

variable {name name' : String}

/-- The bytes of a stored name are the first bytes of the name. -/
theorem bytes_key (h : Storable name) :
    (key name).bytes = name.toUTF8.toList.take nameWidth := by
  let raw := name.toUTF8.toList
  have hget (i : Nat) (hi : i < nameWidth) : (key name)[i] = raw[i]?.getD 0 := by
    rw [key, Bytes.getElem_ofList]
  have hlist : (key name).toList
      = raw.take nameWidth ++ List.replicate (nameWidth - raw.length) 0 := by
    apply List.ext_getElem
    · rw [Vector.length_toList, List.length_append, List.length_take, List.length_replicate]
      omega
    · intro i hi _
      rw [Vector.length_toList] at hi
      rw [Vector.getElem_toList, hget i hi]
      rcases Nat.lt_or_ge i raw.length with hlt | hge
      · rw [List.getElem_append_left (by rw [List.length_take]; omega), List.getElem_take,
          List.getElem?_eq_getElem hlt, Option.getD_some]
      · rw [List.getElem_append_right (by rw [List.length_take]; omega), List.getElem_replicate,
          List.getElem?_eq_none hge, Option.getD_none]
  have hne : ∀ b ∈ raw.take nameWidth, (decide (b ≠ 0)) = true := by
    intro b hb
    rw [decide_eq_true_iff]
    rintro rfl
    exact h.2 (List.mem_of_mem_take hb)
  rw [bytes, hlist, List.takeWhile_append_of_pos hne, List.takeWhile_replicate, if_neg (by decide),
    List.append_nil]

/-- A name of at most 14 bytes, read off its stored form, has that form. -/
theorem key_decodeLossy (h : Storable name) (htext : Text.IsText (key name).bytes) :
    Storable (Text.decodeLossy (key name).bytes) ∧
      key (Text.decodeLossy (key name).bytes) = key name := by
  obtain ⟨s, hs⟩ := htext
  have hbytes := bytes_key h
  have hread : Text.decodeLossy (key name).bytes = s := by
    rw [← hs, Text.decodeLossy_toUTF8]
  have hstorable : Storable s := by
    rw [Storable, hs, hbytes]
    refine ⟨?_, fun hzero => h.2 (List.mem_of_mem_take hzero)⟩
    rw [Ne, List.take_eq_nil_iff]
    exact fun hnil => hnil.elim (by decide) h.1
  rw [hread]
  refine ⟨hstorable, (key_eq_key_iff hstorable h).mpr ?_⟩
  rw [hs, hbytes, List.take_take, Nat.min_self]

/-- Stored names that are UTF-8 and read the same are the same. -/
theorem key_eq_of_decodeLossy_eq (h : Storable name) (h' : Storable name')
    (htext : Text.IsText (key name).bytes) (htext' : Text.IsText (key name').bytes)
    (heq : Text.decodeLossy (key name).bytes = Text.decodeLossy (key name').bytes) :
    key name = key name' := by
  rw [← (key_decodeLossy h htext).2, heq, (key_decodeLossy h' htext').2]

end StoredName

/-! ## Every stored name was given -/

namespace NameMaps

variable {t : NameMaps} {p i : Nat} {n m : StoredName} {k : Kind} {own : StoredName → Option Nat}

/-- Whatever a map links, it links under the key of some name. -/
def Given (f : StoredName → Option Nat) : Prop :=
  ∀ n i, f n = some i → ∃ name, StoredName.encode name = .ok n

theorem given_nothing : Given nothing := fun _ _ h => absurd h (Option.some_ne_none _).symm

theorem Given.update {f : StoredName → Option Nat} (h : Given f)
    (hn : ∃ name, StoredName.encode name = .ok n) (o : Option Nat) :
    Given (Function.update f n o) := by
  intro m i hm
  by_cases hmn : m = n
  · rw [hmn]
    exact hn
  · rw [Function.update_of_ne hmn] at hm
    exact h m i hm

theorem given_selfAndParent (i p : Nat) : Given (selfAndParent i p) :=
  (given_nothing.update ⟨".", StoredName.encode_here⟩ _).update ⟨"..", StoredName.encode_up⟩ _

/-- Removing a key that need not be known leaves only keys that were there. -/
theorem Given.erase {f : StoredName → Option Nat} (h : Given f) (n : StoredName) :
    Given (Function.update f n none) := by
  intro m i hm
  by_cases hmn : m = n
  · rw [hmn, Function.update_self] at hm
    cases hm
  · rw [Function.update_of_ne hmn] at hm
    exact h m i hm

/-- All directories link under keys of names only. -/
def AllGiven (t : NameMaps) : Prop := ∀ d, Given (t.map d)

namespace AllGiven

variable (h : t.AllGiven)

include h

theorem put {f : StoredName → Option Nat} (hf : Given f) (d : Nat) :
    ∀ x, Given (Function.update t.map d f x) := by
  intro x
  by_cases hx : x = d
  · rw [hx, Function.update_self]
    exact hf
  · rw [Function.update_of_ne hx]
    exact h x

theorem link (hn : ∃ name, StoredName.encode name = .ok n) (hown : Given own) :
    (t.link p n i k own).AllGiven :=
  AllGiven.put (t := ⟨t.kind, _⟩) (h.put ((h p).update hn _) p) hown i

theorem unlink : (t.unlink p n i).AllGiven :=
  AllGiven.put (t := ⟨t.kind, _⟩) (h.put ((h p).erase n) p) given_nothing i

theorem relabel (hm : ∃ name, StoredName.encode name = .ok m) : (t.relabel p n m).AllGiven :=
  h.put (((h p).erase n).update hm _) p

end AllGiven

end NameMaps

namespace Scene

variable {l : Layout} {s s' : Scene l} {e : Edit} {r : Except Error Nat}

theorem New.allGiven (h : s.New) : s.maps.AllGiven := by
  intro d
  by_cases hd : d = rootInode
  · have hmap : s.maps.map d = NameMaps.selfAndParent rootInode rootInode := by
      rw [hd]
      exact h.empty.lookup_eq (by decide) (by decide)
    rw [hmap]
    exact NameMaps.given_selfAndParent _ _
  · have hkind : s.records.kind d ≠ .directory := by
      rw [h.kind, if_neg hd]
      exact Kind.noConfusion
    have hmap : s.maps.map d = NameMaps.nothing := by
      change (s.records.table d).lookup = _
      rw [Records.table_of_ne_directory hkind]
      exact funext EntryTable.lookup_empty
    rw [hmap]
    exact NameMaps.given_nothing

theorem Alters.allGiven (h : Alters s s' e r) (hs : s.Good) (hgiven : s.maps.AllGiven) :
    s'.maps.AllGiven := by
  cases h with
  | kept agree =>
    rw [maps, agree.tree_eq hs.tidy.toExact]
    exact hgiven
  | makes hn _ h =>
    rw [h.maps_eq hs]
    exact hgiven.link ⟨_, hn⟩ NameMaps.given_nothing
  | makesDirectory hn h =>
    rw [h.maps_eq hs]
    exact hgiven.link ⟨_, hn⟩ (NameMaps.given_selfAndParent _ _)
  | writes _ _ _ h =>
    rw [maps, h.tree]
    exact hgiven
  | removes h =>
    rw [h.maps_eq hs rfl]
    exact hgiven.unlink
  | relabels hn hused h =>
    rw [h.maps_eq hs hused rfl]
    exact hgiven.relabel ⟨_, hn⟩

end Scene

/-! ## What is listed -/

/-- The children of a directory stand in different slots. -/
theorem EntryTable.pairwise_children (t : EntryTable) : t.children.Pairwise fun e e' =>
    ∃ slot slot', slot ≠ slot' ∧ t.entry slot = e ∧ t.entry slot' = e' := by
  refine List.Pairwise.filter _ (List.pairwise_iff_getElem.mpr fun i j hi hj hlt => ?_)
  obtain ⟨slot, rfl, hslot⟩ := exists_slot (List.getElem?_eq_getElem hi)
  obtain ⟨slot', rfl, hslot'⟩ := exists_slot (List.getElem?_eq_getElem hj)
  exact ⟨slot, slot', fun heq => Nat.ne_of_lt hlt (congrArg Fin.val heq), hslot, hslot'⟩

namespace Records

variable {l : Layout} {c : Records} {d : Nat} {e : Entry}

/-- The child that an entry is listed as. -/
def childOf (c : Records) (e : Entry) : Child :=
  ⟨e.nameText, e.target, c.kind e.target = .directory⟩

/-- The children of a directory as they are listed. -/
def children (c : Records) (d : Nat) : List Child := (c.table d).children.map c.childOf

theorem mem_children_iff (hd : c.kind d = .directory) : e ∈ (c.table d).children ↔
    ∃ slot, (c.table d).entry slot = e ∧ c.tree.Links d slot e.target := by
  rw [EntryTable.children, List.mem_filter, Bool.and_eq_true, Bool.not_eq_true', Bool.not_eq_true',
    Entry.isFree_eq_false_iff]
  constructor
  · rintro ⟨hmem, hused, hname⟩
    obtain ⟨i, hi⟩ := List.getElem?_of_mem hmem
    obtain ⟨slot, -, hslot⟩ := EntryTable.exists_slot hi
    exact ⟨slot, hslot, hd, congrArg Entry.target hslot, hused,
      (congrArg Entry.isSelfOrParent hslot).trans hname⟩
  · rintro ⟨slot, rfl, hlinks⟩
    exact ⟨List.mem_of_getElem? (EntryTable.getElem?_toList slot), hlinks.used, hlinks.named⟩

theorem Tidy.used_of_mem_children (h : c.Tidy l) (hd : c.kind d = .directory)
    (he : e ∈ (c.table d).children) : c.used .inode e.target = true := by
  obtain ⟨slot, -, hlinks⟩ := (mem_children_iff hd).mp he
  exact used_of_kind_ne (h.tree.live d slot _ hlinks).1

end Records

namespace Kernel

/-- Children as a reply lists them, each with the place behind it. -/
def numbered (children : List Child) : List ListedEntry :=
  children.zipIdx.map fun (c, place) => ⟨c.inode, place + 1, c.directory, c.name⟩

/-- All entries of a directory: itself, its parent, and its children. -/
def entriesOf (c : Records) (d : Nat) : List ListedEntry :=
  numbered (⟨".", d, true⟩ :: ⟨"..", c.tree.parent d, true⟩ :: c.children d)

end Kernel

section listing

variable {l : Layout} {s : Scene l} {d : Nat} {e : Entry} {es : List Entry}

theorem Entry.does_child (hm : s.mounted = true) (he : s.records.used .inode e.target = true) :
    Does e.child s (.ok (s.records.childOf e)) s := by
  apply (does_readInode hm he).bind
  rw [Records.childOf, Records.kind_of_used he]
  exact Does.pure _ _

theorem Listing.does_steps (hm : s.mounted = true)
    (hes : ∀ e ∈ es, s.records.used .inode e.target = true) (all : List Entry) :
    Does (steps es.length ⟨all, es⟩) s
      (.ok (es.map fun e => some (.ok (s.records.childOf e)), ⟨all, []⟩)) s := by
  induction es with
  | nil => exact Does.pure _ _
  | cons e es ih =>
    obtain ⟨he, hes⟩ := List.forall_mem_cons.mp hes
    have hnext : Does (next ⟨all, e :: es⟩) s
        (.ok (some (.ok (s.records.childOf e)), ⟨all, es⟩)) s :=
      (Entry.does_child hm he).map.tryCatch_ok.bind (Does.pure _ _)
    exact hnext.bind ((ih hes).bind (Does.pure _ _))

/-- A walk over the children of a directory shows all of them. -/
theorem Volume.does_list (hm : s.mounted = true) (hs : s.Good)
    (hd : s.records.kind d = .directory) :
    Does (walk d >>= Listing.items) s (.ok ((s.records.children d).map .ok)) s := by
  have hopen := Directory.does_ofInode_opened hm hs.tidy.toExact d
  rw [Scene.opened_of_directory hd] at hopen
  apply hopen.map.bind
  have hsteps := Listing.does_steps hm (fun e he => hs.tidy.used_of_mem_children hd he)
    (s.records.table d).children
  refine hsteps.bind ?_
  have hitems : ((s.records.table d).children.map
      fun e => some (Except.ok (s.records.childOf e) : Except Error Child)).filterMap id
        = (s.records.children d).map .ok := by
    rw [Records.children, List.filterMap_map, List.map_map]
    exact congrFun List.filterMap_eq_map _
  rw [← hitems]
  exact Does.pure _ _

theorem Does.mapM_child (hm : s.mounted = true)
    (hes : ∀ e ∈ es, s.records.used .inode e.target = true) :
    Does (es.mapM Entry.child) s (.ok (es.map s.records.childOf)) s := by
  induction es with
  | nil => exact Does.pure _ _
  | cons e es ih =>
    obtain ⟨he, hes⟩ := List.forall_mem_cons.mp hes
    rw [List.mapM_cons]
    exact (Entry.does_child hm he).bind ((ih hes).bind (Does.pure _ _))

/-- What a slot of a directory links is found under the name that it holds. -/
theorem Volume.does_find_slot (hm : s.mounted = true) (hs : s.Good)
    (hd : s.records.kind d = .directory) {slot : Fin slotCount} {name : String}
    (hname : StoredName.encode name = .ok ((s.records.table d).entry slot).name)
    (hused : ((s.records.table d).entry slot).target ≠ 0) :
    Does (find d name) s (.ok ((s.records.table d).entry slot).target) s := by
  have hfind := does_find hm hs.tidy.toExact d name
  have hfound : (s.records.table d).find? name = some ((s.records.table d).entry slot).target := by
    rw [EntryTable.find?_eq hname]
    exact (hs.tidy.tree.unique d hd).lookup_eq_some_iff.mpr ⟨slot, rfl, hused, rfl⟩
  rwa [hfound] at hfind

theorem Volume.does_find_here (hm : s.mounted = true) (hs : s.Good)
    (hd : s.records.kind d = .directory) : Does (find d ".") s (.ok d) s := by
  obtain ⟨htarget, hname⟩ := hs.tidy.tree.self d hd
  have hname : StoredName.encode "." = .ok ((s.records.table d).entry 0).name := by
    rw [show ((s.records.table d).entry 0).name = .here from hname, StoredName.encode_here]
  have hfind := does_find_slot hm hs hd hname (hs.tidy.tree.target_ne_of_lt_two hd (by decide))
  rwa [show ((s.records.table d).entry 0).target = d from htarget] at hfind

theorem Volume.does_find_up (hm : s.mounted = true) (hs : s.Good)
    (hd : s.records.kind d = .directory) :
    Does (find d "..") s (.ok (s.records.tree.parent d)) s := by
  have hname : StoredName.encode ".." = .ok ((s.records.table d).entry 1).name := by
    rw [show ((s.records.table d).entry 1).name = .up from (hs.tidy.tree.up d hd).2,
      StoredName.encode_up]
  exact does_find_slot hm hs hd hname (hs.tidy.tree.parent_ne_zero hd)

/-- A reply lists the directory itself, its parent, and all children. -/
theorem Kernel.does_allEntries (hm : s.mounted = true) (hs : s.Good)
    (hd : s.records.kind d = .directory) :
    Does (allEntries d) s (.ok (entriesOf s.records d)) s := by
  have hopen := Directory.does_ofInode_opened hm hs.tidy.toExact d
  rw [Scene.opened_of_directory hd] at hopen
  have hchildren : Does ((s.records.table d).children.mapM Entry.child) s
      (.ok (s.records.children d)) s :=
    Does.mapM_child hm fun e he => hs.tidy.used_of_mem_children hd he
  refine (does_find_up hm hs hd).bind (hopen.bind (hchildren.bind ?_))
  have hlisted : entriesOf s.records d
      = ((d, true, ".") :: (s.records.tree.parent d, true, "..")
        :: (s.records.children d).map fun c => (c.inode, c.directory, c.name)).zipIdx.map
          fun e => ⟨e.1.1, e.2 + 1, e.1.2.1, e.1.2.2⟩ := by
    rw [entriesOf, numbered]
    simp only [List.zipIdx_cons, List.map_cons, List.zipIdx_map, List.map_map]
    rfl
  rw [hlisted]
  exact Does.pure _ _

theorem Kernel.does_readDirectory (hm : s.mounted = true) (hs : s.Good)
    (hd : s.records.kind d = .directory) (offset : Int) (buffer : ReplyBuffer) (owner group : Nat) :
    Does (answer (.readDirectory d offset buffer)) (ServerScene.mk s owner group)
      (.ok (.directory (buffer.addAll [] (behind offset (entriesOf s.records d)))))
      (ServerScene.mk s owner group) := by
  have hused := Records.used_of_kind_ne (Records.ne_free_of_directory hd)
  have hsmall : d < UInt32.size :=
    Nat.lt_trans (l.small_of_lt (r := .inode) (Scene.lt_count_of_used hused)) (by decide)
  exact (does_inodeIndex hsmall).bind
    ((Kernel.does_onVolume (does_allEntries hm hs hd)).bind (Does.pure _ _))

end listing

/-! ## What the listed names lead to -/

namespace Volume

variable (v : Volume) (l : Layout) (d : Nat)

/-- The entries of the children of a directory. -/
def childEntries : List Entry := ((v.records l).table d).children

/-- What a directory lists, and what looking up a listed name answers. -/
structure ListsNames : Prop where
  list : v.Answers (walk d >>= Listing.items) (.ok (((v.records l).children d).map .ok))
  reply : ∀ offset buffer owner group, ∃ server,
    Kernel.answer (.readDirectory d offset buffer) ⟨v, owner, group⟩
      = .ok (.directory (buffer.addAll []
        (Kernel.behind offset (Kernel.entriesOf (v.records l) d)))) server
  here : v.Answers (find d ".") (.ok d)
  up : v.Answers (find d "..") (.ok ((v.records l).tree.parent d)) ∧
    (v.records l).kind ((v.records l).tree.parent d) = .directory
  given : ∀ e ∈ v.childEntries l d, ∃ name, Storable name ∧
    e.name.bytes = name.toUTF8.toList.take nameWidth ∧ v.Answers (find d name) (.ok e.target)
  kind : ∀ e ∈ v.childEntries l d, ∃ record, v.Answers (readInode e.target) (.ok record) ∧
    (((v.records l).childOf e).directory = true ↔ record.kind = .directory)
  whole : ∀ e ∈ v.childEntries l d, Text.IsText e.name.bytes →
    v.Answers (find d e.nameText) (.ok e.target)
  broken : ∀ e ∈ v.childEntries l d, ¬ Text.IsText e.name.bytes →
    ∃ front : String, front.toUTF8.toList <+: e.name.bytes ∧
      e.nameText = front.push Text.replacement
  distinct : (v.childEntries l d).Pairwise fun e e' =>
    Text.IsText e.name.bytes → Text.IsText e'.name.bytes → e.nameText ≠ e'.nameText

end Volume

namespace Scene

variable {l : Layout} {s : Scene l} {d : Nat} {e : Entry}

/-- A child is found under every name with the key that its entry holds. -/
theorem does_find_child (hm : s.mounted = true) (hs : s.Good)
    (hd : s.records.kind d = .directory) (he : e ∈ (s.records.table d).children) {name : String}
    (hname : Storable name) (hkey : e.name = key name) : Does (find d name) s (.ok e.target) s := by
  obtain ⟨slot, rfl, hlinks⟩ := (Records.mem_children_iff hd).mp he
  refine does_find_slot hm hs hd ?_ hlinks.used
  rw [hkey]
  exact StoredName.encode_of_storable hname

/-- The entry of a child was made for some name. -/
theorem exists_given (hs : s.Good) (hgiven : s.maps.AllGiven) (hd : s.records.kind d = .directory)
    (he : e ∈ (s.records.table d).children) : ∃ name, Storable name ∧ e.name = key name := by
  obtain ⟨slot, rfl, hlinks⟩ := (Records.mem_children_iff hd).mp he
  have hlookup : s.maps.map d ((s.records.table d).entry slot).name
      = some ((s.records.table d).entry slot).target :=
    (hs.tidy.tree.unique d hd).lookup_eq_some_iff.mpr ⟨slot, rfl, hlinks.used, rfl⟩
  obtain ⟨name, hname⟩ := hgiven d _ _ hlookup
  obtain ⟨hne, hzero, hkey⟩ := StoredName.encode_eq_ok_iff.mp hname
  exact ⟨name, ⟨hne, hzero⟩, hkey⟩

/-- The children of a directory have different stored names. -/
theorem pairwise_children (hs : s.Good) (hd : s.records.kind d = .directory) :
    (s.records.table d).children.Pairwise fun e e' => e.name ≠ e'.name := by
  refine (s.records.table d).pairwise_children.imp_of_mem fun he he' hslots hname => ?_
  obtain ⟨slot, slot', hne, rfl, rfl⟩ := hslots
  obtain ⟨k, -, hlinks⟩ := (Records.mem_children_iff hd).mp he
  obtain ⟨k', -, hlinks'⟩ := (Records.mem_children_iff hd).mp he'
  exact hne (hs.tidy.tree.unique d hd slot slot' hlinks.used hlinks'.used hname)

theorem listsNames (hm : s.mounted = true) (hs : s.Good) (hgiven : s.maps.AllGiven)
    (history : History) (hd : s.records.kind d = .directory) :
    (Settled.state s history : Volume).ListsNames l d where
  list := (does_list hm hs hd).answers history
  reply offset buffer owner group := by
    obtain ⟨history', hreply⟩ :=
      Kernel.does_readDirectory hm hs hd offset buffer owner group history
    exact ⟨_, hreply⟩
  here := (does_find_here hm hs hd).answers history
  up := ⟨(does_find_up hm hs hd).answers history, (hs.tidy.tree.up d hd).1⟩
  given e he := by
    obtain ⟨name, hname, hkey⟩ := exists_given hs hgiven hd he
    refine ⟨name, hname, ?_, (does_find_child hm hs hd he hname hkey).answers history⟩
    rw [hkey, StoredName.bytes_key hname]
  kind e he := by
    have hused : s.records.used .inode e.target = true := hs.tidy.used_of_mem_children hd he
    refine ⟨_, (does_readInode hm hused).answers history, ?_⟩
    change decide (s.records.kind e.target = .directory) = true ↔ _
    rw [decide_eq_true_iff, Records.kind_of_used hused]
  whole e he htext := by
    obtain ⟨name, hname, hkey⟩ := exists_given hs hgiven hd he
    rw [hkey] at htext
    obtain ⟨hstorable, hread⟩ := StoredName.key_decodeLossy hname htext
    rw [← hkey] at hstorable hread
    exact (does_find_child hm hs hd he hstorable hread.symm).answers history
  broken e he htext := by
    obtain ⟨name, hname, hkey⟩ := exists_given hs hgiven hd he
    obtain ⟨front, -, hfront, hread⟩ := Text.exists_decodeLossy_take name nameWidth
    rw [← StoredName.bytes_key hname, ← hkey] at hfront hread
    exact ⟨front, hfront, hread.resolve_left fun hwhole => htext hwhole.2⟩
  distinct := by
    refine (pairwise_children hs hd).imp_of_mem fun he he' hne htext htext' heq => hne ?_
    obtain ⟨name, hname, hkey⟩ := exists_given hs hgiven hd he
    obtain ⟨name', hname', hkey'⟩ := exists_given hs hgiven hd he'
    rw [Entry.nameText, Entry.nameText] at heq
    rw [hkey] at htext heq ⊢
    rw [hkey'] at htext' heq ⊢
    exact StoredName.key_eq_of_decodeLossy_eq hname hname' htext htext' heq

end Scene

/-- Whatever calls lead to a mounted volume, with whatever names, each of its directories lists its
children under names that lead to them, as far as the stored bytes are UTF-8. -/
theorem Reached.listed_names_found {g : Geometry} {v : Service} {logs : Logs} {l : Layout}
    (h : Reached g v logs) (hl : Layout.ofGeometry g = .ok l)
    (hm : v.volume.isMounted = true) {d : Nat} (hd : (v.volume.records l).kind d = .directory) :
    v.volume.ListsNames l d := by
  obtain ⟨s, history, hvolume, hrecords, hs, hgiven⟩ :=
    h.exists_scene_keeping hl (fun _ => Scene.New.allGiven)
      fun hs htakes hgiven => htakes.alters.allGiven hs hgiven
  rw [hrecords] at hd
  rw [hvolume, isMounted_state] at hm
  rw [hvolume]
  exact s.listsNames hm hs hgiven history hd

/-! ## A name that is cut inside a character -/

/-- The stored form of a name of 13 letters and a first byte of a character behind them. -/
def StoredName.broken (b : UInt8) : StoredName := .ofList nameWidth (List.replicate 13 0x61 ++ [b])

theorem StoredName.encode_broken :
    StoredName.encode "aaaaaaaaaaaaa\u00E9" = .ok (StoredName.broken 0xC3) := by
  apply StoredName.encode_eq_ok_iff.mpr
  rw [toList_eq_data_toList]
  decide

theorem StoredName.encode_replaced :
    StoredName.encode "aaaaaaaaaaaaa\uFFFD" = .ok (StoredName.broken 0xEF) := by
  apply StoredName.encode_eq_ok_iff.mpr
  rw [toList_eq_data_toList]
  decide

theorem StoredName.decodeLossy_broken :
    Text.decodeLossy (StoredName.broken 0xC3).bytes = "aaaaaaaaaaaaa\uFFFD" := by decide

theorem reached_broken :
    let v := (Call.edit (.makeFile rootInode "aaaaaaaaaaaaa\u00E9")).after Service.floppy
    ∃ logs history, ∃ s : Scene .floppy, Reached .floppy v logs ∧
      v.volume = Settled.state s history ∧ s.Good ∧ s.mounted = true ∧
      s.records.kind 2 = .file ∧ s.maps.map rootInode = Function.update
        (NameMaps.selfAndParent rootInode rootInode) (StoredName.broken 0xC3) (some 2) := by
  intro v
  obtain ⟨s, history, hfloppy, hnew⟩ := Service.floppy_eq
  obtain ⟨s', hmake, hmakes⟩ := hnew.does_makeFile (by decide) StoredName.encode_broken (by decide)
  obtain ⟨history', hleft⟩ := Does.leftBy_eq
    (x := (Edit.makeFile rootInode "aaaaaaaaaaaaa\u00E9").action) hmake history
  refine ⟨_, history', s', reached_floppy.call (.edit (.makeFile rootInode "aaaaaaaaaaaaa\u00E9")),
    ?_, hmakes.good hnew.good, hmakes.mounted.trans hnew.mounted, ?_, ?_⟩
  · change leftBy _ Service.floppy.volume = _
    rw [hfloppy]
    exact hleft
  · rw [hmakes.kind_eq, if_pos rfl]
  · have hmap : s.maps.map rootInode = NameMaps.selfAndParent rootInode rootInode :=
      hnew.empty.lookup_eq (by decide) (by decide)
    rw [hmakes.maps_eq hnew.good, NameMaps.link]
    simp only
    rw [Function.update_of_ne (by decide), Function.update_self, hmap]

/-- The character at the cut of the name is listed as a replacement character.  The name that is
listed is not found, for the cut leaves another first byte of it. -/
theorem Reached.listed_name_not_found_floppy :
    let v := (Call.edit (.makeFile rootInode "aaaaaaaaaaaaa\u00E9")).after Service.floppy
    ∃ logs children, Reached .floppy v logs ∧ v.volume.isMounted = true ∧
      v.volume.Answers (walk rootInode >>= Listing.items) (.ok children) ∧
      .ok ⟨"aaaaaaaaaaaaa\uFFFD", 2, false⟩ ∈ children ∧
      v.volume.Answers (find rootInode "aaaaaaaaaaaaa\uFFFD") (.error .notFound) := by
  intro v
  obtain ⟨logs, history, s, hreached, hvolume, hs, hm, hfile, hmap⟩ := reached_broken
  have hroot : s.records.kind rootInode = .directory := hs.tidy.tree.root
  have hlookup : (s.records.table rootInode).lookup (StoredName.broken 0xC3) = some 2 := by
    change s.maps.map rootInode _ = _
    rw [hmap, Function.update_self]
  obtain ⟨slot, -, htarget, -, hname⟩ := EntryTable.exists_slot_of_lookup hlookup
  have hlinks : s.records.tree.Links rootInode slot 2 := by
    refine ⟨hroot, htarget, by decide, ?_⟩
    change ((s.records.table rootInode).entry slot).name.isSelfOrParent = false
    rw [hname]
    decide
  have hchild : s.records.childOf ((s.records.table rootInode).entry slot)
      = ⟨"aaaaaaaaaaaaa\uFFFD", 2, false⟩ := by
    rw [Records.childOf, Entry.nameText, hname, StoredName.decodeLossy_broken, htarget, hfile]
    rfl
  have hmem : (s.records.table rootInode).entry slot ∈ (s.records.table rootInode).children := by
    refine (Records.mem_children_iff hroot).mpr ⟨slot, rfl, ?_⟩
    rw [htarget]
    exact hlinks
  have hmissing : (s.records.table rootInode).find? "aaaaaaaaaaaaa\uFFFD" = none := by
    rw [EntryTable.find?_eq StoredName.encode_replaced]
    change s.maps.map rootInode _ = _
    rw [hmap]
    decide
  have hfind := does_find hm hs.tidy.toExact rootInode "aaaaaaaaaaaaa\uFFFD"
  rw [hmissing] at hfind
  refine ⟨logs, (s.records.children rootInode).map .ok, hreached, ?_, ?_, ?_, ?_⟩
  · rw [hvolume, isMounted_state, hm]
  · rw [hvolume]
    exact (does_list hm hs hroot).answers history
  · rw [← hchild]
    exact List.mem_map_of_mem (List.mem_map_of_mem hmem)
  · rw [hvolume]
    exact hfind.answers history

/-- The same volume: the one name in its root is the one that is broken. -/
theorem Reached.listed_names_found_floppy :
    let v := (Call.edit (.makeFile rootInode "aaaaaaaaaaaaa\u00E9")).after Service.floppy
    ∃ logs, Reached .floppy v logs ∧ Layout.ofGeometry .floppy = .ok .floppy ∧
      v.volume.isMounted = true ∧ (v.volume.records .floppy).kind rootInode = .directory ∧
      v.volume.ListsNames .floppy rootInode := by
  obtain ⟨logs, history, s, hreached, hvolume, -, hm, -⟩ := reached_broken
  have hmounted : ((Call.edit (.makeFile rootInode "aaaaaaaaaaaaa\u00E9")).after
      Service.floppy).volume.isMounted = true := by
    rw [hvolume, isMounted_state, hm]
  have hroot := (hreached.tidy Layout.ofGeometry_floppy).tree.root
  exact ⟨logs, hreached, Layout.ofGeometry_floppy, hmounted, hroot,
    hreached.listed_names_found Layout.ofGeometry_floppy hmounted hroot⟩

end BlockFS
