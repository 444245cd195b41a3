import BlockFS.Host.Image
import BlockFS.Proofs.LossyText
import BlockFS.Proofs.PackedFiles
import BlockFS.Proofs.StoreLaws
import Mathlib.Data.List.Nodup

/-!
# The order of a host folder

A host tells the files of a folder in any order.  They are packed in the order of their names, so that the
image does not depend on it, with one exception.  Names that are not UTF-8 may be read as the same text;
of the files with one text only that which the host tells first is packed.
-/

namespace BlockFS

open Volume
open StoredName (Storable key)

/-! ## The first under a name -/

section firstUnder

variable {α β : Type} {name : String} {a : α} {pairs : List (String × α)}

/-- The first pair of a row under a name. -/
def firstUnder (name : String) (pairs : List (String × α)) : Option (String × α) :=
  pairs.find? fun p => p.1 == name

theorem firstUnder_cons_self : firstUnder name ((name, a) :: pairs) = some (name, a) :=
  List.find?_cons_of_pos (beq_self_eq_true name)

theorem firstUnder_cons_of_ne {other : String} (h : other ≠ name) :
    firstUnder name ((other, a) :: pairs) = firstUnder name pairs :=
  List.find?_cons_of_neg (by simpa using h)

theorem firstUnder_map (f : String × α → β) :
    firstUnder name (pairs.map fun p => (p.1, f p))
      = (firstUnder name pairs).map fun p => (p.1, f p) :=
  List.find?_map

/-- If no two pairs have one name, their order does not matter. -/
theorem firstUnder_eq_of_perm {pairs' : List (String × α)} (h : pairs.Perm pairs')
    (hnodup : (pairs.map Prod.fst).Nodup) : firstUnder name pairs = firstUnder name pairs' := by
  have hname {pairs : List (String × α)} {p : String × α} (hp : firstUnder name pairs = some p) :
      p.1 = name := by
    simpa using List.find?_some hp
  cases hfirst : firstUnder name pairs with
  | none =>
    refine (List.find?_eq_none.mpr fun p hp => ?_).symm
    exact List.find?_eq_none.mp hfirst p (h.mem_iff.mpr hp)
  | some p =>
    have hmem : p ∈ pairs := List.mem_of_find?_eq_some hfirst
    cases hfirst' : firstUnder name pairs' with
    | none =>
      have hne := List.find?_eq_none.mp hfirst' p (h.mem_iff.mp hmem)
      exact absurd (by simpa using hname hfirst) hne
    | some p' =>
      have hmem' : p' ∈ pairs := h.mem_iff.mpr (List.mem_of_find?_eq_some hfirst')
      rw [List.inj_on_of_nodup_map hnodup hmem hmem' ((hname hfirst).trans (hname hfirst').symm)]

end firstUnder

/-! ## Sorting by names -/

namespace Host

variable {files files' : List (String × List UInt8)}

/-- The order of names, as sorting asks for it. -/
theorem le_trans_names (a b c : String × List UInt8) (hab : decide (a.1 ≤ b.1) = true)
    (hbc : decide (b.1 ≤ c.1) = true) : decide (a.1 ≤ c.1) = true :=
  decide_eq_true (String.le_trans (of_decide_eq_true hab) (of_decide_eq_true hbc))

theorem le_total_names (a b : String × List UInt8) :
    (decide (a.1 ≤ b.1) || decide (b.1 ≤ a.1)) = true := by
  simpa using String.le_total a.1 b.1

/-- The names come in an order that depends on nothing but which names there are. -/
theorem names_sortByName_eq (h : (files.map Prod.fst).Perm (files'.map Prod.fst)) :
    (sortByName files).map Prod.fst = (sortByName files').map Prod.fst := by
  have hsorted (files : List (String × List UInt8)) :
      ((sortByName files).map Prod.fst).Pairwise fun a b => a ≤ b :=
    List.pairwise_map.mpr
      ((List.pairwise_mergeSort le_trans_names le_total_names files).imp of_decide_eq_true)
  have hperm (files : List (String × List UInt8)) :
      ((sortByName files).map Prod.fst).Perm (files.map Prod.fst) :=
    (List.mergeSort_perm files _).map Prod.fst
  exact ((hperm files).trans (h.trans (hperm files').symm)).eq_of_pairwise
    (fun _ _ _ _ => String.le_antisymm) (hsorted files) (hsorted files')

/-- Files of one name stay in their order. -/
theorem filter_sortByName (name : String) (files : List (String × List UInt8)) :
    (sortByName files).filter (·.1 == name) = files.filter (·.1 == name) := by
  have hname {file : String × List UInt8} (h : file ∈ files.filter (·.1 == name)) :
      file.1 = name := eq_of_beq (List.mem_filter.mp h).2
  have hties : (files.filter (·.1 == name)).Pairwise fun a b => decide (a.1 ≤ b.1) = true := by
    refine List.pairwise_iff_forall_sublist.mpr fun {a b} hab => ?_
    have ha := hname (hab.subset (List.mem_cons_self ..))
    have hb := hname (hab.subset (List.mem_cons_of_mem _ (List.mem_singleton_self b)))
    exact decide_eq_true (ha.trans hb.symm ▸ String.le_refl _)
  have hsublist : (files.filter (·.1 == name)).Sublist (sortByName files) :=
    List.sublist_mergeSort le_trans_names le_total_names hties List.filter_sublist
  have hfilter := hsublist.filter (·.1 == name)
  rw [List.filter_filter, funext fun _ => Bool.and_self _] at hfilter
  exact (hfilter.eq_of_length ((List.mergeSort_perm files _).filter _).length_eq.symm).symm

theorem firstUnder_sortByName (name : String) (files : List (String × List UInt8)) :
    firstUnder name (sortByName files) = firstUnder name files := by
  rw [firstUnder, ← List.head?_filter, filter_sortByName, List.head?_filter, firstUnder]

end Host

/-! ## Packing in lockstep -/

namespace Scene

variable {l : Layout} {s s1 s' : Scene l} {name : String} {contents contents' : List UInt8}
  {files files' : List (String × List UInt8)}

theorem does_packAll_cons {packed : Bool} {r : Except Error Nat}
    (hpack : Does (pack name contents) s (.ok packed) s1) (hrest : Does (packAll files) s1 r s') :
    Does (packAll ((name, contents) :: files)) s (r.map (· + if packed then 1 else 0)) s' := by
  cases r with
  | ok k => exact hpack.bind (hrest.bind (Does.pure _ _))
  | error e => exact hpack.bind hrest.bind_error

/-- Two rows of files with the same names are packed alike, if under each name that is not taken both have
the same file first. -/
theorem does_packAll_alike (hm : s.mounted = true) (hs : s.Good)
    (hnames : files.map Prod.fst = files'.map Prod.fst)
    (hfirst : ∀ name, s.taken (key name) = false →
      firstUnder name files = firstUnder name files') :
    ∃ r s', Does (packAll files) s r s' ∧ Does (packAll files') s r s' := by
  induction files generalizing s files' with
  | nil =>
    obtain rfl := List.map_eq_nil_iff.mp hnames.symm
    exact ⟨.ok 0, s, Does.pure _ _, Does.pure _ _⟩
  | cons file files ih =>
    obtain ⟨file', files', rfl, hname, htail⟩ := List.map_eq_cons_iff.mp hnames.symm
    obtain ⟨name, contents⟩ := file
    obtain ⟨name', contents'⟩ := file'
    obtain rfl : name' = name := hname
    -- Behind these two the files agree under the names that are still free.
    have hbehind {s2 : Scene l} (hkept : ∀ n, s2.taken n = false → s.taken n = false)
        (htaken : s2.taken (key name') = true) (other : String)
        (hfree : s2.taken (key other) = false) :
        firstUnder other files = firstUnder other files' := by
      have hne : name' ≠ other := by
        rintro rfl
        exact Bool.noConfusion (htaken.symm.trans hfree)
      have hsame := hfirst other (hkept _ hfree)
      rw [firstUnder_cons_of_ne hne, firstUnder_cons_of_ne hne] at hsame
      exact hsame
    by_cases hstorable : Storable name'
    · cases htaken : s.taken (key name') with
      | true =>
        obtain ⟨r, s', hrest, hrest'⟩ := ih hm hs htail.symm (hbehind (fun _ h => h) htaken)
        exact ⟨_, s', does_packAll_cons (does_pack_skips hm hs hstorable htaken) hrest,
          does_packAll_cons (does_pack_skips hm hs hstorable htaken) hrest'⟩
      | false =>
        have hsame := hfirst name' htaken
        rw [firstUnder_cons_self, firstUnder_cons_self] at hsame
        obtain rfl : contents = contents' := congrArg Prod.snd (Option.some.inj hsame)
        rcases does_pack hm hs (name', contents) with ⟨-, -, htaken'⟩ | ⟨e, s', hpack⟩ |
          ⟨i, n, s1, s2, hpack, -, -, hmakes, hfills, -⟩
        · cases htaken.symm.trans htaken'
        · exact ⟨.error e, s', hpack.bind_error, hpack.bind_error⟩
        · have hupdate := taken_copied hmakes hfills hs
          obtain ⟨r, s', hrest, hrest'⟩ :=
            ih (hfills.writes.mounted.trans (hmakes.mounted.trans hm))
              (hfills.good (hmakes.good hs)) htail.symm (hbehind
                (fun n hn => by
                  rw [hupdate, Function.update_apply] at hn
                  split at hn
                  · cases hn
                  · exact hn)
                (by rw [hupdate, Function.update_self]))
          exact ⟨_, s', does_packAll_cons hpack hrest, does_packAll_cons hpack hrest'⟩
    · exact ⟨.error .invalidName, s, (does_pack_refuses hm hs hstorable).bind_error,
        (does_pack_refuses hm hs hstorable).bind_error⟩

/-- Of two files with one name, and room for the first, the first is kept. -/
theorem New.does_packAll_same_name (h : s.New) (hinode : 2 < l.inodeCount)
    (hblock : l.firstDataBlock + 1 < l.blockCount) {n : StoredName}
    (hname : StoredName.encode name = .ok n) (hdot : n.isSelfOrParent = false)
    (hdata : contents ≠ []) (hshort : contents.length < blockSize) (contents' : List UInt8) :
    ∃ s' i, Does (packAll [(name, contents), (name, contents')]) s (.ok 1) s' ∧
      s'.maps.map rootInode (key name) = some i ∧
      (s'.records.inode i).size.toNat = contents.length := by
  obtain ⟨s', hpack, hpacks, hfresh⟩ := h.packs hinode hblock hname hdot hdata
  have hfresh : s.taken (key (name, contents).1) = false := hfresh
  obtain ⟨short, hcopied⟩ := hpacks.copied
  rw [freshFiles_of_fresh hfresh] at hcopied
  obtain ⟨i, n, hholds, -, hwhole⟩ := hcopied _ (List.mem_cons_self ..)
  have hn : n = contents.length := by
    rcases hwhole with hwhole | ⟨-, hcut⟩
    · have hwhole : n = min contents.length maxFileSize := hwhole
      simp only [maxFileSize, pointerCount, blockSize] at hwhole hshort
      omega
    · have hpos := hcut.pos
      have hlt : n < min contents.length maxFileSize := hcut.lt
      have haligned := hcut.aligned
      simp only [maxFileSize, pointerCount, blockSize] at hlt hshort haligned
      omega
  have htaken : s'.taken (key name) = true := congrArg Option.isSome hholds.linked
  have hskip : Does (pack name contents') s' (.ok false) s' :=
    does_pack_skips (hpacks.mounted.trans h.mounted) hpacks.good
      (StoredName.storable_of_encode hname).1 htaken
  have hrest : Does (packAll [(name, contents')]) s' (.ok 0) s' :=
    does_packAll_cons (r := .ok 0) hskip (Does.pure 0 s')
  exact ⟨s', i, does_packAll_cons (r := .ok 0) hpack hrest, hholds.linked, hholds.size.trans hn⟩

end Scene

/-! ## Two orders of a folder -/

namespace Host

variable {W : Type} {host : Operations (EStateM Failure W)} {image folder text : String} {w : W}
  {list' : String → EStateM Failure W (List Listed)} {entries entries' : List Listed}
  {data : Component → List UInt8} {l : Layout} {s : Scene l} {g : Geometry}

/-- The nodes that are packed: the name under which each of them is, and the name that the host has for
it. -/
def packedNodes (entries : List Listed) : List (String × Component) :=
  entries.filterMap fun l => l.packedName.map fun name => (name, l.name)

/-- In a state of the host a folder is told in two orders, and what it holds can be read.  Of the nodes
that are packed under one name both orders have the same first. -/
structure Reorders (host : Operations (EStateM Failure W))
    (list' : String → EStateM Failure W (List Listed)) (folder : String) (w : W)
    (entries entries' : List Listed) (data : Component → List UInt8) : Prop where
  lists : host.list folder w = .ok entries w
  lists' : list' folder w = .ok entries' w
  perm : entries.Perm entries'
  reads : ∀ node ∈ packedNodes entries, host.readIn folder node.2 w = .ok (data node.2) w
  first : ∀ name, firstUnder name (packedNodes entries) = firstUnder name (packedNodes entries')

/-- A name that is UTF-8 can be told from the text under which its file is packed. -/
theorem Listed.name_eq_of_packedName {entry : Listed} {name : String}
    (h : entry.packedName = some name) (htext : Text.IsText entry.name) :
    entry.name = name.toUTF8.toList := by
  obtain ⟨text, htext⟩ := htext
  rw [Listed.packedName] at h
  split at h
  · cases h
  · rw [← Option.some.inj h, ← htext, Text.decodeLossy_toUTF8]

theorem nodup_packedNodes (hnodup : (entries.map Listed.name).Nodup)
    (htexts : ∀ entry ∈ entries, Text.IsText entry.name) :
    ((packedNodes entries).map Prod.fst).Nodup := by
  rw [List.Nodup, packedNodes, List.pairwise_map, List.pairwise_filterMap]
  refine (List.pairwise_map.mp hnodup).imp_of_mem ?_
  intro a b ha hb hne node hnode node' hnode' heq
  obtain ⟨name, hname, rfl⟩ := Option.map_eq_some_iff.mp hnode
  obtain ⟨name', hname', rfl⟩ := Option.map_eq_some_iff.mp hnode'
  obtain rfl : name = name' := heq
  exact hne ((Listed.name_eq_of_packedName hname (htexts a ha)).trans
    (Listed.name_eq_of_packedName hname' (htexts b hb)).symm)

/-- Where all names are UTF-8, no order of them is told from another. -/
theorem Reorders.of_texts (hlists : host.list folder w = .ok entries w)
    (hlists' : list' folder w = .ok entries' w) (hperm : entries.Perm entries')
    (hreads : ∀ node ∈ packedNodes entries, host.readIn folder node.2 w = .ok (data node.2) w)
    (hnodup : (entries.map Listed.name).Nodup)
    (htexts : ∀ entry ∈ entries, Text.IsText entry.name) :
    Reorders host list' folder w entries entries' data where
  lists := hlists
  lists' := hlists'
  perm := hperm
  reads := hreads
  first _ := firstUnder_eq_of_perm (hperm.filterMap _) (nodup_packedNodes hnodup htexts)

theorem mapM_readIn_eq {nodes : List (String × Component)}
    (h : ∀ node ∈ nodes, host.readIn folder node.2 w = .ok (data node.2) w) :
    (nodes.mapM (fun node => return (node.1, ← host.readIn folder node.2)) :
      EStateM Failure W (List (String × List UInt8))) w
        = .ok (nodes.map fun node => (node.1, data node.2)) w := by
  induction nodes with
  | nil => rfl
  | cons node nodes ih =>
    have hnode := h node (List.mem_cons_self ..)
    have hrest := ih fun other hmem => h other (List.mem_cons_of_mem _ hmem)
    have hread : (do return (node.1, ← host.readIn folder node.2) :
        EStateM Failure W (String × List UInt8)) w = .ok (node.1, data node.2) w :=
      bind_of_ok hnode
    rw [List.mapM_cons, bind_of_ok hread, bind_of_ok hrest]
    rfl

theorem filesToPack_eq (hlist : host.list folder w = .ok entries w)
    (hreads : ∀ node ∈ packedNodes entries, host.readIn folder node.2 w = .ok (data node.2) w) :
    filesToPack host folder w
      = .ok (sortByName ((packedNodes entries).map fun node => (node.1, data node.2))) w := by
  rw [filesToPack, bind_of_ok hlist]
  exact bind_of_ok (mapM_readIn_eq hreads)

theorem bind_congr_at {α β : Type} {x y : EStateM Failure W α} {f : α → EStateM Failure W β}
    (h : x w = y w) : (x >>= f) w = (y >>= f) w := by
  cases hy : y w with
  | ok a w' => rw [bind_of_ok (h.trans hy), bind_of_ok hy]
  | error e w' => rw [bind_of_error (h.trans hy), bind_of_error hy]

section storing

variable {α : Type} {x : VolumeM α} {volume volume' : Volume}

theorem storing_of_ok {a : α} (h : x volume = .ok a volume') :
    storing host image volume x
      = (host.store image volume'.device.disk >>= fun _ => pure (a, volume')) := by
  rw [storing, h]

theorem storing_of_error {e : Error} (h : x volume = .error e volume') :
    storing host image volume x
      = (host.store image volume'.device.disk >>= fun _ => throw (.volume e)) := by
  rw [storing, h]

end storing

/-- Both orders of a folder give rows that are packed alike. -/
theorem Reorders.exists_files (h : Reorders host list' folder w entries entries' data) :
    ∃ files files', filesToPack host folder w = .ok files w ∧
      filesToPack { host with list := list' } folder w = .ok files' w ∧
      files.map Prod.fst = files'.map Prod.fst ∧
      ∀ name, firstUnder name files = firstUnder name files' := by
  have hnodes : (packedNodes entries).Perm (packedNodes entries') := h.perm.filterMap _
  have hreads : ∀ node ∈ packedNodes entries',
      host.readIn folder node.2 w = .ok (data node.2) w :=
    fun node hmem => h.reads node (hnodes.mem_iff.mpr hmem)
  refine ⟨_, _, filesToPack_eq h.lists h.reads, filesToPack_eq h.lists' hreads, ?_, fun name => ?_⟩
  · exact names_sortByName_eq ((hnodes.map _).map _)
  · rw [firstUnder_sortByName, firstUnder_sortByName, firstUnder_map, firstUnder_map, h.first]

/-- The last step of making an image: the files of a folder go into the new volume. -/
def fill (host : Operations (EStateM Failure W)) (image folder text : String) (volume : Volume) :
    EStateM Failure W String := do
  let _ ← storing host image volume (packAll (← filesToPack host folder))
  return text

theorem fill_reordered (h : Reorders host list' folder w entries entries' data) (hnew : s.New)
    (history : History) :
    fill { host with list := list' } image folder text (Settled.state s history) w
      = fill host image folder text (Settled.state s history) w := by
  obtain ⟨files, files', hfiles, hfiles', hnames, hfirst⟩ := h.exists_files
  obtain ⟨r, s', hpacks, hpacks'⟩ :=
    Scene.does_packAll_alike hnew.mounted hnew.good hnames fun name _ => hfirst name
  obtain ⟨history1, hpacks⟩ := hpacks history
  obtain ⟨history2, hpacks'⟩ := hpacks' history
  rw [fill, bind_of_ok hfiles', fill, bind_of_ok hfiles]
  -- The two volumes differ in nothing but their histories, which no image keeps.
  cases r with
  | ok k =>
    rw [storing_of_ok hpacks, storing_of_ok hpacks', bind_assoc, bind_assoc]
    rfl
  | error e =>
    rw [storing_of_error hpacks, storing_of_error hpacks', bind_assoc, bind_assoc]
    rfl

/-- Until the files of a folder go in, no step asks what it holds. -/
theorem makeImage_eq (hl : Layout.ofGeometry g = .ok l) :
    makeImage host image (some folder) g = (do
      let size := g.blockCount.toNat * blockSize
      host.create image
      host.resize image size
      let made ← storing host image (.unmounted (.reliable (.zeros size)) (← host.now)) (format g)
      fill host image folder
        s!"Wrote {image} ({g.blockCount} blocks, {g.inodeCount} inodes)\n" made.2) := by
  unfold makeImage
  simp only [hl]
  rfl

/-- Two ways to list a folder tell the same in a state of the host, or the same in two orders. -/
def ListsAlike (host : Operations (EStateM Failure W))
    (list' : String → EStateM Failure W (List Listed)) (folder : String) (w : W) : Prop :=
  list' folder w = host.list folder w ∨
    ∃ entries entries' data, Reorders host list' folder w entries entries' data

theorem fill_alike (h : ListsAlike host list' folder w) (hnew : s.New) (history : History) :
    fill { host with list := list' } image folder text (Settled.state s history) w
      = fill host image folder text (Settled.state s history) w := by
  rcases h with hsame | ⟨entries, entries', data, h⟩
  · exact bind_congr_at (bind_congr_at hsame)
  · exact fill_reordered h hnew history

/-- The image and the answer do not depend on the order in which a folder is listed, as long as of the
files that are packed under one name the same is listed first. -/
theorem makeImage_reordered (host : Operations (EStateM Failure W))
    (list' : String → EStateM Failure W (List Listed)) (image : String) (source : Option String)
    (g : Geometry) (h : ∀ folder w, source = some folder → ListsAlike host list' folder w) :
    makeImage { host with list := list' } image source g = makeImage host image source g := by
  cases source with
  | none => rfl
  | some folder =>
    cases hl : Layout.ofGeometry g with
    | error e =>
      unfold makeImage
      simp only [hl]
      rfl
    | ok l =>
      rw [makeImage_eq hl, makeImage_eq hl]
      refine bind_congr fun _ => bind_congr fun _ => bind_congr fun now => ?_
      obtain ⟨s, history, hformat, hnew⟩ :=
        format_eq hl (.zeros (g.blockCount.toNat * blockSize)) now
      rw [storing_of_ok hformat, storing_of_ok hformat, bind_assoc, bind_assoc]
      refine bind_congr fun _ => funext fun w => ?_
      exact fill_alike (h folder w rfl) hnew history

/-! ## A host with one folder -/

section folderHost

variable {names names' : List Component}

/-- Regular files as a folder lists them. -/
def listed (names : List Component) : List Listed := names.map fun name => ⟨name, true⟩

/-- A host that keeps an image, beside a folder of files that it tells in the order given. -/
def folderHost (names : List Component) (data : Component → List UInt8) :
    Operations (EStateM Failure Disk) where
  create _ := set Disk.empty
  resize _ size := set (Disk.zeros size)
  store _ disk := set disk
  load _ := get
  list _ := return listed names
  readIn _ name := return data name
  now := return 0

theorem listsAlike_folderHost (h : names.Perm names') (hnodup : names.Nodup)
    (htexts : ∀ name ∈ names, Text.IsText name) (folder : String) (w : Disk) :
    ListsAlike (folderHost names data) (folderHost names' data).list folder w := by
  refine .inr ⟨listed names, listed names', data, .of_texts rfl rfl (h.map _) (fun _ _ => rfl) ?_ ?_⟩
  · rw [listed, List.map_map]
    exact (List.map_id names).symm ▸ hnodup
  · exact List.forall_mem_map.mpr htexts

/-- The files a and b make one image in either order. -/
theorem makeImage_reordered_texts :
    let data : Component → List UInt8 := fun name => if name = [0x61] then [0x31] else [0x32, 0x32]
    let host := folderHost [[0x61], [0x62]] data
    let host' := folderHost [[0x62], [0x61]] data
    (∀ folder w, some "r" = some folder → ListsAlike host host'.list folder w) ∧
      makeImage host' "d" (some "r") ⟨7, 8, 1⟩ = makeImage host "d" (some "r") ⟨7, 8, 1⟩ := by
  intro data host host'
  have htexts : ∀ name ∈ [[0x61], [0x62]], Text.IsText name := by
    simp only [List.forall_mem_cons, List.not_mem_nil, false_implies, implies_true, and_true]
    exact ⟨⟨"a", by rw [toList_eq_data_toList]; decide⟩, ⟨"b", by rw [toList_eq_data_toList]; decide⟩⟩
  have halike (folder : String) (w : Disk) (_ : some "r" = some folder) :
      ListsAlike host host'.list folder w :=
    listsAlike_folderHost (List.Perm.swap ..) (by decide) htexts folder w
  exact ⟨halike, makeImage_reordered host host'.list "d" (some "r") ⟨7, 8, 1⟩ halike⟩

/-- Of two files whose names are read as the same text, the image holds the first. -/
theorem exists_image_same_text (hl : Layout.ofGeometry g = .ok l) (hinode : 2 < l.inodeCount)
    (hblock : l.firstDataBlock + 1 < l.blockCount) (data : Component → List UInt8)
    (raw raw' : Component)
    (hnodes : packedNodes (listed [raw, raw']) = [("\uFFFD", raw), ("\uFFFD", raw')])
    (hdata : data raw ≠ []) (hshort : (data raw).length < blockSize) (w : Disk) :
    ∃ text i, ∃ s' : Scene l,
      makeImage (folderHost [raw, raw'] data) image (some folder) g w = .ok text s'.store.disk ∧
      s'.maps.map rootInode (key "\uFFFD") = some i ∧
      (s'.records.inode i).size.toNat = (data raw).length := by
  obtain ⟨s, history, hformat, hnew⟩ := format_eq hl (.zeros (g.blockCount.toNat * blockSize)) 0
  obtain ⟨s', i, hdoes, hmap, hsize⟩ := hnew.does_packAll_same_name hinode hblock
    StoredName.encode_replacement (by decide) hdata hshort (data raw')
  obtain ⟨history', hpacked⟩ := hdoes history
  let host := folderHost [raw, raw'] data
  have hfiles (w : Disk) : filesToPack host folder w
      = .ok [("\uFFFD", data raw), ("\uFFFD", data raw')] w := by
    have hsorted : [("\uFFFD", data raw), ("\uFFFD", data raw')].Pairwise
        fun a b => decide (a.1 ≤ b.1) = true := by
      simp
    rw [filesToPack_eq rfl fun _ _ => rfl, hnodes]
    exact congrArg (EStateM.Result.ok · w) (List.mergeSort_of_pairwise hsorted)
  have hcreate (w : Disk) : host.create image w = .ok () .empty := rfl
  have hresize (size : Nat) (w : Disk) : host.resize image size w = .ok () (.zeros size) := rfl
  have hnow (w : Disk) : host.now w = .ok 0 w := rfl
  have hstore (disk w : Disk) : host.store image disk w = .ok () disk := rfl
  rw [makeImage_eq hl, bind_of_ok (hcreate _), bind_of_ok (hresize _ _), bind_of_ok (hnow _),
    storing_of_ok hformat, bind_assoc, bind_of_ok (hstore _ _)]
  change ∃ text i, ∃ s' : Scene l, fill host image folder _ (Settled.state s history) _ = _ ∧ _
  rw [fill, bind_of_ok (hfiles _), storing_of_ok hpacked, bind_assoc, bind_of_ok (hstore _ _)]
  exact ⟨_, i, s', rfl, hmap, hsize⟩

/-- Two files with the names FE and FF, neither of which is UTF-8, are packed under one name; which of
them is packed depends on the order of the folder. -/
theorem makeImage_not_reordered :
    let data : Component → List UInt8 := fun name => if name = [0xFE] then [0x31] else [0x32, 0x32]
    let host := folderHost [[0xFE], [0xFF]] data
    let host' := folderHost [[0xFF], [0xFE]] data
    [[0xFE], [0xFF]].Perm [[0xFF], ([0xFE] : Component)] ∧ host' = { host with list := host'.list } ∧
      ∃ text disk text' disk',
        makeImage host "d" (some "r") ⟨7, 8, 1⟩ .empty = .ok text disk ∧
        makeImage host' "d" (some "r") ⟨7, 8, 1⟩ .empty = .ok text' disk' ∧ disk ≠ disk' := by
  intro data host host'
  obtain ⟨text, i, s, hmade, hmap, hsize⟩ :=
    exists_image_same_text Layout.ofGeometry_tight (by decide) (by decide) data [0xFE] [0xFF]
      (by decide) (by decide) (by decide) .empty
  obtain ⟨text', i', s', hmade', hmap', hsize'⟩ :=
    exists_image_same_text Layout.ofGeometry_tight (by decide) (by decide) data [0xFF] [0xFE]
      (by decide) (by decide) (by decide) .empty
  refine ⟨List.Perm.swap .., rfl, text, _, text', _, hmade, hmade', fun hdisk => ?_⟩
  have hstore : s.store = s'.store := Store.eq_of_disk_eq hdisk
  have hrecords : s.records = s'.records := congrArg Store.records hstore
  have hmaps : s.maps = s'.maps := congrArg (fun c => c.tree.maps) hrecords
  rw [hmaps] at hmap
  obtain rfl : i = i' := Option.some.inj (hmap.symm.trans hmap')
  rw [hrecords] at hsize
  have hlength : (data [0xFE]).length = (data [0xFF]).length := hsize.symm.trans hsize'
  exact absurd hlength (by decide)

end folderHost

end Host

end BlockFS
