import BlockFS.Format
import BlockFS.Proofs.Calls.Volumes
import BlockFS.Proofs.FileContents
import BlockFS.Proofs.NamesExact

/-!
# Packed files

Packing copies those files of a row whose names are not taken, neither on the volume nor by an earlier
file of the row.  If it succeeds, each of them is found in the root and holds its contents up to the
largest size of a file, except that the last one to which a block was given may be cut short where the
volume became full.  What was on the volume before is unchanged.
-/

namespace BlockFS

open Volume
open StoredName (Storable key)

/-- The size of the largest file. -/
abbrev maxFileSize : Nat := pointerCount * blockSize

/-- The files of a row whose keys are not taken, neither before nor by an earlier file of the row. -/
def freshFiles (taken : StoredName → Bool) :
    List (String × List UInt8) → List (String × List UInt8)
  | [] => []
  | file :: files =>
    if taken (key file.1) then freshFiles taken files
    else file :: freshFiles (Function.update taken (key file.1) true) files

variable {l : Layout} {s s1 s2 s' : Scene l} {i k n : Nat} {name : String} {contents : List UInt8}
  {file : String × List UInt8} {files : List (String × List UInt8)}

theorem freshFiles_of_taken {taken : StoredName → Bool} (h : taken (key file.1) = true) :
    freshFiles taken (file :: files) = freshFiles taken files := by
  rw [freshFiles, if_pos h]

theorem freshFiles_of_fresh {taken : StoredName → Bool} (h : taken (key file.1) = false) :
    freshFiles taken (file :: files)
      = file :: freshFiles (Function.update taken (key file.1) true) files := by
  rw [freshFiles, h, if_neg Bool.false_ne_true]

/-! ## Files that were written from the start -/

section

variable {data : List UInt8}

theorem Cells.lay_blank (k : Nat) : Cells.blank.lay 0 data k = data[k]? := by
  rw [Cells.lay, if_pos (Nat.zero_le k), Nat.sub_zero, Cells.blank, Option.or_none]

theorem Cells.touches_lay_blank {slot : Nat} :
    (Cells.blank.lay 0 data).Touches slot ↔ slot * blockSize < data.length := by
  constructor
  · rintro ⟨j, -, hne⟩
    rw [lay_blank] at hne
    by_contra hle
    exact hne (List.getElem?_eq_none (by omega))
  · intro hlt
    refine ⟨0, blockSize_pos, ?_⟩
    rw [lay_blank, Nat.add_zero, List.getElem?_eq_getElem hlt]
    exact Option.some_ne_none _

theorem Cells.bytes_lay_blank (start stop : Nat) (h : stop ≤ data.length) :
    (Cells.blank.lay 0 data).bytes start stop = (data.drop start).take (stop - start) := by
  refine List.ext_getElem? fun j => ?_
  rw [Cells.bytes, List.getElem?_map, List.getElem?_take]
  by_cases hj : j < stop - start
  · have hin : start + j < data.length := by omega
    rw [List.getElem?_range' hj, Option.map_some, Nat.one_mul, Cells.value, lay_blank, if_pos hj,
      List.getElem?_drop, List.getElem?_eq_getElem hin, Option.getD_some]
  · rw [List.getElem?_eq_none (by simpa using hj), if_neg hj, Option.map_none]

/-- A file that holds some data from its start on, and nothing else, is read as that data. -/
theorem Volume.does_readAt_whole (hm : s.mounted = true) (hs : s.Good)
    (hi : s.records.kind i = .file)
    (hshow : Cells.Shows (s.records.content i) (Cells.blank.lay 0 data))
    (hsize : (s.records.inode i).size.toNat = data.length) (offset length : Nat) :
    Does (readAt i offset length) s (.ok ((data.drop offset).take length)) s := by
  have hhole (slot : Nat) (hge : data.length ≤ slot * blockSize) :
      s.records.content i slot = none := by
    cases hc : s.records.content i slot with
    | none => rfl
    | some b =>
      have htouched := Cells.touches_lay_blank.mp (hshow.touched slot b hc)
      omega
  have hfull (slot : Nat) (hlt : slot * blockSize < data.length) :
      s.records.content i slot ≠ none := fun hc =>
    hshow.hole slot hc (Cells.touches_lay_blank.mpr hlt)
  -- The first hole from the offset on lies behind all data.
  obtain ⟨gap, hbehind, hpast, hbefore⟩ : ∃ gap, offset / blockSize ≤ gap ∧
      data.length ≤ gap * blockSize ∧
      ∀ slot, offset / blockSize ≤ slot → slot < gap → slot * blockSize < data.length := by
    refine ⟨max (offset / blockSize) ((data.length + (blockSize - 1)) / blockSize),
      Nat.le_max_left _ _, ?_, fun slot hle hlt => ?_⟩
    · simp only [blockSize]
      omega
    · simp only [blockSize] at hle hlt ⊢
      omega
  have hread := does_readAt hm hs.tidy.toExact hi hshow offset length hbehind (hhole gap hpast)
    fun slot hle hlt => hfull slot (hbefore slot hle hlt)
  rw [hsize, Cells.bytes_lay_blank _ _ (by omega)] at hread
  have htake : (data.drop offset).take
      (min (min (offset + length) data.length) (gap * blockSize) - offset)
        = (data.drop offset).take length := by
    rw [List.take_eq_take_iff, List.length_drop]
    omega
  rw [htake] at hread
  exact hread

end

/-! ## One file after another -/

/-- Of a file only the first `n` bytes were copied: they end with a block, and no block is left. -/
structure Records.CutShort (l : Layout) (c : Records) (file : String × List UInt8) (n : Nat) :
    Prop where
  pos : 0 < n
  lt : n < min file.2.length maxFileSize
  aligned : n % blockSize = 0
  full : c.AllUsed l .block

namespace Scene

/-- The keys that are linked in the root. -/
def taken (s : Scene l) (n : StoredName) : Bool := (s.maps.map rootInode n).isSome

/-- The name of a file links an inode that holds the first `n` bytes of its contents. -/
structure Holds (s : Scene l) (file : String × List UInt8) (i n : Nat) : Prop where
  linked : s.maps.map rootInode (key file.1) = some i
  kind : s.records.kind i = .file
  le : n ≤ file.2.length
  size : (s.records.inode i).size.toNat = n
  shows : Cells.Shows (s.records.content i) (Cells.blank.lay 0 (file.2.take n))

/-- Some files were packed, `k` of them copied. -/
structure Packs (files : List (String × List UInt8)) (k : Nat) (s s' : Scene l) : Prop where
  mounted : s'.mounted = s.mounted
  good : s'.Good
  storable : ∀ file ∈ files, Storable file.1
  count : k = (freshFiles s.taken files).length
  kind : ∀ j, s.records.kind j ≠ .free → s'.records.kind j = s.records.kind j
  kept : ∀ j, s.records.kind j = .file → FileKept s s' j
  linked : ∀ d n j, s.maps.map d n = some j → s'.maps.map d n = some j
  added : ∀ d n, s.records.kind d = .directory → s.maps.map d n = none →
    s'.maps.map d n ≠ none → d = rootInode ∧ ∃ file ∈ freshFiles s.taken files, n = key file.1
  used : ∀ b, s.records.used .block b = true → s'.records.used .block b = true
  copied : ∃ short : Option (String × List UInt8), ∀ file ∈ freshFiles s.taken files, ∃ i n,
    s'.Holds file i n ∧ (n ≠ 0 → ¬ s.records.AllUsed l .block) ∧
      (n = min file.2.length maxFileSize ∨ short = some file ∧ s'.records.CutShort l file n)

theorem FileKept.trans {j : Nat} (h : FileKept s s1 j) (h' : FileKept s1 s' j) :
    FileKept s s' j where
  kind := h.kind
  inode := h'.inode.trans h.inode
  content slot := (h'.content slot).trans (h.content slot)

theorem Packs.nil (hs : s.Good) : Packs [] 0 s s where
  mounted := rfl
  good := hs
  storable _ h := nomatch h
  count := rfl
  kind _ _ := rfl
  kept _ hj := ⟨hj, rfl, fun _ => rfl⟩
  linked _ _ _ h := h
  added _ _ _ hnone hsome := absurd hnone hsome
  used _ h := h
  copied := ⟨none, fun _ h => nomatch h⟩

/-- A file whose key is taken is passed over. -/
theorem Packs.cons_taken (w : Packs files k s s') (hname : Storable file.1)
    (htaken : s.taken (key file.1) = true) : Packs (file :: files) k s s' := by
  have hfresh : freshFiles s.taken (file :: files) = freshFiles s.taken files :=
    freshFiles_of_taken htaken
  exact {
    w with
    storable := List.forall_mem_cons.mpr ⟨hname, w.storable⟩
    count := by rw [hfresh]; exact w.count
    added := by rw [hfresh]; exact w.added
    copied := by rw [hfresh]; exact w.copied }

/-- What is not in use links nothing. -/
theorem map_of_free {d : Nat} (hd : s.records.kind d = .free) (m : StoredName) :
    s.maps.map d m = none := by
  have hne : s.records.kind d ≠ .directory := by
    rw [hd]
    exact Kind.noConfusion
  change (s.records.table d).lookup m = none
  rw [Records.table_of_ne_directory hne, EntryTable.lookup_empty]

/-- What is held stays held. -/
theorem Packs.holds (w : Packs files k s2 s') (h : s2.Holds file i n) : s'.Holds file i n := by
  obtain ⟨-, hinode, hcontent⟩ := w.kept i h.kind
  have hcontent : s'.records.content i = s2.records.content i := funext hcontent
  exact {
    linked := w.linked _ _ _ h.linked
    kind := (w.kind i (Records.ne_free_of_file h.kind)).trans h.kind
    le := h.le
    size := by rw [hinode]; exact h.size
    shows := by rw [hcontent]; exact h.shows }

/-! ## A file that is copied -/

section

variable (hmakes : Makes rootInode i (key file.1) s s1)
  (hfills : Fills i 0 maxFileSize file.2 Cells.blank s1 s2 n)

include hmakes hfills

theorem kind_copied (j : Nat) :
    s2.records.kind j = if j = i then .file else s.records.kind j :=
  (hfills.writes.kind_eq j).trans (hmakes.kind_eq j)

variable (hs : s.Good)

include hs

theorem map_copied (d : Nat) (m : StoredName) :
    s2.maps.map d m = if d = i then none else if d = rootInode ∧ m = key file.1 then some i
      else s.maps.map d m := by
  have hmaps : s2.maps = s1.maps := congrArg NameTree.maps hfills.writes.tree
  rw [hmaps, hmakes.maps_eq hs]
  simp only [NameMaps.link, Function.update_apply]
  split
  · rfl
  · by_cases hd : d = rootInode
    · subst hd
      simp only [if_true, true_and, Function.update_apply]
    · rw [if_neg hd, if_neg fun h => hd h.1]

theorem taken_copied : s2.taken = Function.update s.taken (key file.1) true := by
  have hne := (hmakes.ne_root hs).symm
  funext m
  rw [taken, map_copied hmakes hfills hs, if_neg hne, Function.update_apply]
  by_cases hm : m = key file.1
  · rw [if_pos ⟨rfl, hm⟩, if_pos hm]
    rfl
  · rw [if_neg fun h => hm h.2, if_neg hm]
    rfl

theorem fileKept_copied {j : Nat} (hj : s.records.kind j = .file) : FileKept s s2 j := by
  have hji : j ≠ i := by
    rintro rfl
    cases hj.symm.trans hmakes.unused
  have hj1 : s1.records.kind j = .file := by
    rw [hmakes.kind_eq, if_neg hji]
    exact hj
  have hj2 : s2.records.kind j = .file := (hfills.writes.kind_eq j).trans hj1
  exact (hmakes.fileKept hs hj1 hji).trans (hfills.writes.fileKept hj2 hji)

theorem used_copied (b : Nat) (hb : s.records.used .block b = true) :
    s2.records.used .block b = true := by
  rw [← hmakes.used_block_eq] at hb
  exact hfills.writes.used (hmakes.good hs).tidy .block b hb

/-- A file that holds something was given a block that was free. -/
theorem room_copied (hn : n ≠ 0) : ¬ s.records.AllUsed l .block := by
  intro hfull
  have hs1 := hmakes.good hs
  have hi1 : s1.records.kind i = .file := by
    rw [hmakes.kind_eq, if_pos rfl]
  have hlength : (file.2.take n).length = n := by
    rw [List.length_take, Nat.min_eq_left hfills.le]
  have htouches : (Cells.blank.lay 0 (file.2.take n)).Touches 0 := by
    rw [Cells.touches_lay_blank, hlength]
    omega
  rcases hfills.writes.pointer hs1.tidy hi1 0 with hsame | ⟨-, b, hb, hfree, -⟩
  · rw [Records.content_eq_none_iff.mp (hmakes.blank.2 0)] at hsame
    exact hfills.shows.hole 0 (Records.content_eq_none_iff.mpr hsame) htouches
  · have hi2 : s2.records.kind i = .file := (hfills.writes.kind_eq i).trans hi1
    have hown : s2.records.Owns i 0 b := ⟨Records.ne_free_of_file hi2, hb⟩
    rw [hmakes.used_block_eq, hfull b (hfills.writes.tidy.blocks.range i 0 b hown).2] at hfree
    cases hfree

theorem holds_copied (hsize : (s2.records.inode i).size.toNat = n) : s2.Holds file i n where
  linked := by rw [map_copied hmakes hfills hs, if_neg (hmakes.ne_root hs).symm, if_pos ⟨rfl, rfl⟩]
  kind := by rw [kind_copied hmakes hfills, if_pos rfl]
  le := hfills.le
  size := hsize
  shows := hfills.shows

/-- At most one of the files is cut short: no block is left for those behind it. -/
theorem Packs.copied_cons (w : Packs files k s2 s')
    (hsize : (s2.records.inode i).size.toNat = n) (hidle : n = 0 → file.2.length = 0)
    (hused : ∀ b, s.records.used .block b = true → s2.records.used .block b = true) :
    ∃ short : Option (String × List UInt8),
      ∀ file' ∈ file :: freshFiles s2.taken files, ∃ i n, s'.Holds file' i n ∧
        (n ≠ 0 → ¬ s.records.AllUsed l .block) ∧
        (n = min file'.2.length maxFileSize ∨
          short = some file' ∧ s'.records.CutShort l file' n) := by
  have hholds := w.holds (holds_copied hmakes hfills hs hsize)
  have hroom := room_copied hmakes hfills hs
  obtain ⟨short, hcopied⟩ := w.copied
  have hroom2 {m : Nat} (hm : m ≠ 0 → ¬ s2.records.AllUsed l .block) (hne : m ≠ 0) :
      ¬ s.records.AllUsed l .block := fun hfull => hm hne fun b hb => hused b (hfull b hb)
  by_cases hwhole : n = min file.2.length maxFileSize
  · refine ⟨short, List.forall_mem_cons.mpr ⟨⟨i, n, hholds, hroom, .inl hwhole⟩, ?_⟩⟩
    intro file' hmem
    obtain ⟨j, m, hj, hm, hcut⟩ := hcopied file' hmem
    exact ⟨j, m, hj, hroom2 hm, hcut⟩
  · have hpos : n ≠ 0 := by
      rintro rfl
      rw [hidle rfl, Nat.zero_min] at hwhole
      exact hwhole rfl
    have hle := hfills.le
    have hfits : 0 + n ≤ maxFileSize := hfills.fits hpos
    obtain ⟨hhole, hfull⟩ := hfills.stops (by omega) (by omega)
    have hfull2 : s2.records.AllUsed l .block :=
      hfills.writes.tidy.toExact.lowestFree_eq_none_iff_allUsed.mp hfull
    have hcut : s'.records.CutShort l file n := by
      refine ⟨Nat.pos_of_ne_zero hpos, by omega, ?_, fun b hb => w.used b (hfull2 b hb)⟩
      rw [← Nat.zero_add n]
      exact Scene.aligned_of_hole hfills.toPuts hpos hhole
    refine ⟨some file, List.forall_mem_cons.mpr ⟨⟨i, n, hholds, hroom, .inr ⟨rfl, hcut⟩⟩, ?_⟩⟩
    intro file' hmem
    obtain ⟨j, m, hj, hm, hcut'⟩ := hcopied file' hmem
    refine ⟨j, m, hj, hroom2 hm, hcut'.imp_right fun ⟨_, hshort⟩ => ?_⟩
    exact absurd hfull2 (hm (Nat.ne_of_gt hshort.pos))

/-- A file whose key is not taken is copied. -/
theorem Packs.cons_fresh (w : Packs files k s2 s') (hname : Storable file.1)
    (hfresh : s.taken (key file.1) = false)
    (hsize : (s2.records.inode i).size.toNat = n)
    (hidle : n = 0 → file.2.length = 0) : Packs (file :: files) (k + 1) s s' := by
  have hlist : freshFiles s.taken (file :: files) = file :: freshFiles s2.taken files := by
    rw [freshFiles_of_fresh hfresh, taken_copied hmakes hfills hs]
  have hnone : s.maps.map rootInode (key file.1) = none := by
    rw [taken, Option.isSome_eq_false_iff, Option.isNone_iff_eq_none] at hfresh
    exact hfresh
  have hkind {j : Nat} (hj : s.records.kind j ≠ .free) : s2.records.kind j = s.records.kind j := by
    have hji : j ≠ i := by
      rintro rfl
      exact hj hmakes.unused
    rw [kind_copied hmakes hfills, if_neg hji]
  have hused (b : Nat) := used_copied hmakes hfills hs b
  constructor
  · exact w.mounted.trans (hfills.writes.mounted.trans hmakes.mounted)
  · exact w.good
  · exact List.forall_mem_cons.mpr ⟨hname, w.storable⟩
  · rw [hlist, List.length_cons, ← w.count]
  · intro j hj
    have hj2 := hkind hj
    exact (w.kind j (by rw [hj2]; exact hj)).trans hj2
  · intro j hj
    have hj2 := hkind (Records.ne_free_of_file hj)
    exact (fileKept_copied hmakes hfills hs hj).trans (w.kept j (hj2.trans hj))
  · intro d m j hj
    refine w.linked d m j ?_
    have hd : d ≠ i := by
      rintro rfl
      rw [map_of_free hmakes.unused] at hj
      cases hj
    have hkey : ¬ (d = rootInode ∧ m = key file.1) := by
      rintro ⟨rfl, rfl⟩
      rw [hnone] at hj
      cases hj
    rw [map_copied hmakes hfills hs, if_neg hd, if_neg hkey]
    exact hj
  · intro d m hd hbefore hafter
    rw [hlist]
    have hdi : d ≠ i := by
      rintro rfl
      rw [hmakes.unused] at hd
      cases hd
    by_cases hkey : d = rootInode ∧ m = key file.1
    · exact ⟨hkey.1, file, List.mem_cons_self .., hkey.2⟩
    · have hd2 : s2.records.kind d = .directory := (hkind (Records.ne_free_of_directory hd)).trans hd
      have hbefore2 : s2.maps.map d m = none := by
        rw [map_copied hmakes hfills hs, if_neg hdi, if_neg hkey]
        exact hbefore
      obtain ⟨hroot, file', hmem, hm⟩ := w.added d m hd2 hbefore2 hafter
      exact ⟨hroot, file', List.mem_cons_of_mem _ hmem, hm⟩
  · exact fun b hb => w.used b (hused b hb)
  · rw [hlist]
    exact w.copied_cons hmakes hfills hs hsize hidle hused

end

/-! ## Rows of files -/

/-- A file whose key is taken is passed over. -/
theorem does_pack_skips (hm : s.mounted = true) (hs : s.Good) (hname : Storable name)
    (htaken : s.taken (key name) = true) : Does (pack name contents) s (.ok false) s := by
  obtain ⟨i, hmap⟩ := Option.isSome_iff_exists.mp htaken
  have hfind := does_find hm hs.tidy.toExact rootInode name
  rw [find?_table_eq hname, hmap] at hfind
  exact does_pack_taken hfind

/-- A file whose name cannot be stored is refused, whatever it holds. -/
theorem does_pack_refuses (hm : s.mounted = true) (hs : s.Good) (hname : ¬ Storable name) :
    Does (pack name contents) s (.error .invalidName) s := by
  have hbad := StoredName.encode_of_not_storable hname
  have hfind := does_find hm hs.tidy.toExact rootInode name
  rw [EntryTable.find?_of_error hbad] at hfind
  exact does_pack_missing hfind (does_makeFile_badName hbad).bind_error

/-- A file is passed over, or packing it fails, or it is made and written to. -/
theorem does_pack (hm : s.mounted = true) (hs : s.Good) (file : String × List UInt8) :
    (Does (pack file.1 file.2) s (.ok false) s ∧ Storable file.1 ∧
      s.taken (key file.1) = true) ∨
    (∃ e s', Does (pack file.1 file.2) s (.error e) s') ∨
    ∃ i n s1 s2, Does (pack file.1 file.2) s (.ok true) s2 ∧ Storable file.1 ∧
      s.taken (key file.1) = false ∧ Makes rootInode i (key file.1) s s1 ∧
      Fills i 0 maxFileSize file.2 Cells.blank s1 s2 n ∧
      (s2.records.inode i).size.toNat = n ∧ (n = 0 → file.2.length = 0) := by
  by_cases hname : Storable file.1
  · have hfind := does_find hm hs.tidy.toExact rootInode file.1
    have htable := find?_table_eq (s := s) (p := rootInode) hname
    cases hmap : s.maps.map rootInode (key file.1) with
    | some i =>
      have htaken : s.taken (key file.1) = true := by rw [taken, hmap]; rfl
      exact .inl ⟨does_pack_skips hm hs hname htaken, hname, htaken⟩
    | none =>
      rw [htable, hmap] at hfind
      rw [hmap] at htable
      obtain ⟨r, s1, hmake, hr⟩ := makeFile_step hm hs rootInode file.1
      rcases hr with ⟨e, rfl, -⟩ | ⟨i, rfl, -, hfound⟩ | ⟨i, m, rfl, hn, -, hmakes⟩
      · exact .inr (.inl ⟨e, s1, does_pack_missing hfind hmake.bind_error⟩)
      · cases htable.symm.trans hfound
      · rw [StoredName.encode_of_storable hname] at hn
        obtain rfl := Except.ok.inj hn
        have hs1 := hmakes.good hs
        have hi : s1.records.kind i = .file := by rw [hmakes.kind_eq, if_pos rfl]
        obtain ⟨hzero, hblank⟩ := hmakes.blank
        have hshow : Cells.Shows (s1.records.content i) Cells.blank := by
          rw [show s1.records.content i = fun _ => none from funext hblank]
          exact Cells.Shows.blank
        obtain ⟨r, s2, n, hwrite, hfills, hsize, hr⟩ :=
          does_writeAt (hmakes.mounted.trans hm) hs1.tidy hi hshow 0 file.2
        rcases hr with ⟨rfl, hidle⟩ | ⟨rfl, -⟩
        · refine .inr (.inr ⟨i, n, s1, s2, ?_, hname, by rw [taken, hmap]; rfl, hmakes, hfills, ?_,
            fun hn => (hidle hn).resolve_right (by decide)⟩)
          · exact does_pack_missing hfind (hmake.bind (hwrite.bind (Does.pure _ _)))
          · rw [hsize, hzero]
            split
            · next hn => rw [hn]; rfl
            · rw [Nat.zero_add]
              exact Nat.max_eq_right (Nat.zero_le n)
        · exact .inr (.inl ⟨_, s2, does_pack_missing hfind (hmake.bind hwrite.bind_error)⟩)
  · exact .inr (.inl ⟨_, s, does_pack_refuses hm hs hname⟩)

theorem does_pack_unmounted (hm : s.mounted = false) (file : String × List UInt8) :
    ∃ e s', Does (pack file.1 file.2) s (.error e) s' := by
  have hfind : Does (find rootInode file.1) s (.error .notMounted) s := by
    refine Does.bind_error ((Directory.does_ofInode_unmounted hm rootInode).tryCatch_error ?_)
    exact Does.throw _ _
  exact ⟨_, s, does_pack_failed hfind Error.noConfusion⟩

/-- Packing ends in some way, and if it succeeds, it has packed the files. -/
theorem does_packAll (hs : s.Good) (files : List (String × List UInt8)) :
    ∃ r s', Does (packAll files) s r s' ∧
      ∀ k, r = .ok k → s.Packs files k s' ∧ (files = [] ∨ s.mounted = true) := by
  induction files generalizing s with
  | nil =>
    refine ⟨.ok 0, s, Does.pure _ _, fun k hk => ?_⟩
    cases hk
    exact ⟨.nil hs, .inl rfl⟩
  | cons file files ih =>
    have hfailed (h : ∃ e s', Does (pack file.1 file.2) s (.error e) s') :
        ∃ r s', Does (packAll (file :: files)) s r s' ∧ ∀ k, r = .ok k →
          s.Packs (file :: files) k s' ∧ (file :: files = [] ∨ s.mounted = true) := by
      obtain ⟨e, s', hpack⟩ := h
      exact ⟨.error e, s', hpack.bind_error, fun k hk => nomatch hk⟩
    by_cases hm : s.mounted = true
    · rcases does_pack hm hs file with ⟨hpack, hname, htaken⟩ | herror |
        ⟨i, n, s1, s2, hpack, hname, hfresh, hmakes, hfills, hsize, hidle⟩
      · obtain ⟨r, s', hrest, hpacks⟩ := ih hs
        cases r with
        | error e => exact ⟨.error e, s', hpack.bind hrest.bind_error, fun k hk => nomatch hk⟩
        | ok k =>
          refine ⟨.ok k, s', hpack.bind (hrest.bind (Does.pure _ _)), fun k' hk => ?_⟩
          obtain rfl := Except.ok.inj hk
          exact ⟨(hpacks k rfl).1.cons_taken hname htaken, .inr hm⟩
      · exact hfailed herror
      · obtain ⟨r, s', hrest, hpacks⟩ := ih (hfills.good (hmakes.good hs))
        cases r with
        | error e => exact ⟨.error e, s', hpack.bind hrest.bind_error, fun k hk => nomatch hk⟩
        | ok k =>
          refine ⟨.ok (k + 1), s', hpack.bind (hrest.bind (Does.pure _ _)), fun k' hk => ?_⟩
          obtain rfl := Except.ok.inj hk
          exact ⟨(hpacks k rfl).1.cons_fresh hmakes hfills hs hname hfresh hsize hidle, .inr hm⟩
    · exact hfailed (does_pack_unmounted (Bool.eq_false_iff.mpr hm) file)

end Scene

/-! ## What packing leaves on a volume -/

namespace Volume

variable (v : Volume) (l : Layout)

/-- The name of a file leads to an inode that is read as the first `n` bytes of its contents. -/
structure Copied (file : String × List UInt8) (i n : Nat) : Prop where
  found : v.Answers (find rootInode file.1) (.ok i)
  kind : (v.records l).kind i = .file
  size : v.Answers (fileSize i) (.ok n)
  bytes : ∀ offset length,
    v.Answers (readAt i offset length) (.ok (((file.2.take n).drop offset).take length))

/-- The files of a row whose keys are linked neither in the root nor by an earlier file of the row. -/
def fresh (files : List (String × List UInt8)) : List (String × List UInt8) :=
  freshFiles (fun n => ((v.maps l).map rootInode n).isSome) files

/-- Of a row of files the `k` fresh ones were copied in full, except that one of them may have been cut
short where the volume became full; nothing else changed. -/
structure Packs (files : List (String × List UInt8)) (k : Nat) (v' : Volume) : Prop where
  storable : ∀ file ∈ files, Storable file.1
  count : k = (v.fresh l files).length
  copied : ∃ short : Option (String × List UInt8), ∀ file ∈ v.fresh l files, ∃ i n,
    v'.Copied l file i n ∧ (n = min file.2.length maxFileSize ∨
      short = some file ∧ (v'.records l).CutShort l file n)
  linked : ∀ d n i, (v.maps l).map d n = some i → (v'.maps l).map d n = some i
  added : ∀ d n, (v.records l).kind d = .directory → (v.maps l).map d n = none →
    (v'.maps l).map d n ≠ none → d = rootInode ∧ ∃ file ∈ v.fresh l files, n = key file.1
  kind : ∀ i, (v.records l).kind i ≠ .free → (v'.records l).kind i = (v.records l).kind i
  inode : ∀ i, (v.records l).kind i = .file → (v'.records l).inode i = (v.records l).inode i
  content : ∀ i slot, (v.records l).kind i = .file →
    (v'.records l).content i slot = (v.records l).content i slot

end Volume

theorem Scene.Holds.copied (h : s.Holds file i n) (hm : s.mounted = true) (hs : s.Good)
    (hname : Storable file.1) (history : History) :
    (Settled.state s history).Copied l file i n where
  found := by
    have hfind := does_find hm hs.tidy.toExact rootInode file.1
    rw [find?_table_eq hname, h.linked] at hfind
    exact hfind.answers history
  kind := h.kind
  size := by
    have hused := Records.used_of_kind_ne (Records.ne_free_of_file h.kind)
    have hsize := does_fileSize hm hused
    rw [h.size] at hsize
    exact hsize.answers history
  bytes offset length := by
    have hlength : (file.2.take n).length = n := by rw [List.length_take, Nat.min_eq_left h.le]
    exact (does_readAt_whole hm hs h.kind h.shows (h.size.trans hlength.symm) offset
      length).answers history

theorem storable_of_mem_freshFiles {taken : StoredName → Bool}
    (hfiles : ∀ file ∈ files, Storable file.1) (h : file ∈ freshFiles taken files) :
    Storable file.1 := by
  induction files generalizing taken with
  | nil => cases h
  | cons first files ih =>
    have hrest := fun file hmem => hfiles file (List.mem_cons_of_mem _ hmem)
    by_cases hfirst : taken (key first.1) = true
    · rw [freshFiles_of_taken hfirst] at h
      exact ih hrest h
    · rw [freshFiles_of_fresh (Bool.eq_false_iff.mpr hfirst), List.mem_cons] at h
      rcases h with rfl | h
      · exact hfiles _ (List.mem_cons_self ..)
      · exact ih hrest h

theorem Scene.Packs.settled (w : Scene.Packs files k s s') (hopen : files = [] ∨ s.mounted = true)
    (history history' : History) :
    (Settled.state s history : Volume).Packs l files k (Settled.state s' history') where
  storable := w.storable
  count := w.count
  copied := by
    obtain ⟨short, hcopied⟩ := w.copied
    refine ⟨short, fun file hmem => ?_⟩
    have hm : s.mounted = true := by
      refine hopen.resolve_left fun hnil => ?_
      subst hnil
      cases hmem
    obtain ⟨i, n, hholds, -, hcut⟩ := hcopied file hmem
    have hname := storable_of_mem_freshFiles w.storable hmem
    exact ⟨i, n, hholds.copied (w.mounted.trans hm) w.good hname history', hcut⟩
  linked := w.linked
  added := w.added
  kind := w.kind
  inode i hi := (w.kept i hi).inode
  content i slot hi := (w.kept i hi).content slot

/-- Whatever calls led to a volume, packing that succeeds copies the files whose names are not taken and
changes nothing else; at most one of them is cut short, and only where the volume became full. -/
theorem Reached.packing_exact {g : Geometry} {v : Service} {logs : Logs} (h : Reached g v logs)
    (hl : Layout.ofGeometry g = .ok l) (files : List (String × List UInt8)) {v' : Volume}
    (hok : packAll files v.volume = .ok k v') : v.volume.Packs l files k v' := by
  obtain ⟨s, history, hvolume, -, hs, -⟩ := h.exists_scene hl
  obtain ⟨r, s', hdoes, hpacks⟩ := Scene.does_packAll hs files
  obtain ⟨history', hdoes⟩ := hdoes history
  rw [hvolume, hdoes] at hok
  cases r with
  | error e => cases hok
  | ok k' =>
    cases hok
    obtain ⟨hpacks, hopen⟩ := hpacks k rfl
    rw [hvolume]
    exact hpacks.settled hopen history history'

/-! ## A volume on which one block is free -/

/-- The layout of a volume of seven blocks, the last but one of which holds the root. -/
def Layout.tight : Layout := ⟨.ofGeometry ⟨7, 8, 1⟩, by decide⟩

theorem Layout.ofGeometry_tight : Layout.ofGeometry ⟨7, 8, 1⟩ = .ok .tight := rfl

/-- A new volume of seven blocks. -/
def Service.tight : Service :=
  .new (leftBy (format ⟨7, 8, 1⟩) (unmounted (.reliable .empty) 0))

/-- In a new volume with room for a file and a block, the first file can be packed. -/
theorem Scene.New.does_pack (h : s.New) (hinode : 2 < l.inodeCount)
    (hblock : l.firstDataBlock + 1 < l.blockCount) {n : StoredName}
    (hname : StoredName.encode name = .ok n) (hdot : n.isSelfOrParent = false)
    (hdata : contents ≠ []) : ∃ s', Does (pack name contents) s (.ok true) s' := by
  have hs := h.good
  have hfind : Does (find rootInode name) s (.error .notFound) s := by
    have hfind := does_find h.mounted hs.tidy.toExact rootInode name
    rw [EntryTable.find?_eq hname, h.empty.lookup_eq_none hdot] at hfind
    exact hfind
  obtain ⟨s1, hmake, hmakes⟩ := h.does_makeFile hinode hname hdot
  have hi : s1.records.kind 2 = .file := by rw [hmakes.kind_eq, if_pos rfl]
  obtain ⟨r, s2, n, hwrite, hfills, -, hr⟩ := does_writeAt (hmakes.mounted.trans h.mounted)
    (hmakes.good hs).tidy hi (Cells.shows_ofContent _) 0 contents
  rcases hr with ⟨rfl, -⟩ | ⟨-, rfl, rfl⟩
  · exact ⟨s2, does_pack_missing hfind (hmake.bind (hwrite.bind (Does.pure _ _)))⟩
  · have hfull := (hfills.stops (List.length_pos_iff.mpr hdata) (by decide)).2
    rw [hmakes.lowestFree_block_eq, h.lowestFree_block hblock] at hfull
    cases hfull

/-- The first file is packed as the only one of a row. -/
theorem Scene.New.packs (h : s.New) (hinode : 2 < l.inodeCount)
    (hblock : l.firstDataBlock + 1 < l.blockCount) {n : StoredName}
    (hname : StoredName.encode name = .ok n) (hdot : n.isSelfOrParent = false)
    (hdata : contents ≠ []) :
    ∃ s', Does (pack name contents) s (.ok true) s' ∧ s.Packs [(name, contents)] 1 s' ∧
      s.taken (key name) = false := by
  obtain ⟨s', hpack⟩ := h.does_pack hinode hblock hname hdot hdata
  have hdoes : Does (packAll [(name, contents)]) s (.ok 1) s' :=
    hpack.bind ((Does.pure 0 _).bind (Does.pure _ _))
  obtain ⟨r, s'', hdoes', hpacks⟩ := does_packAll h.good [(name, contents)]
  obtain ⟨rfl, rfl⟩ := does_unique hdoes hdoes'
  obtain ⟨-, rfl⟩ := StoredName.storable_of_encode hname
  exact ⟨s', hpack, (hpacks 1 rfl).1,
    congrArg Option.isSome (h.empty.lookup_eq_none hdot)⟩

/-- Besides the block of the root there is only one, so no file holds two. -/
theorem Scene.Holds.le_blockSize {s : Scene .tight} (h : s.Holds file i n) (hs : s.Good) :
    n ≤ blockSize := by
  by_contra hlong
  have hexact := hs.tidy.toExact
  have hlength : (file.2.take n).length = n := by rw [List.length_take, Nat.min_eq_left h.le]
  have hown (slot : Nat) (hslot : slot * blockSize < n) : ∃ b, s.records.Owns i slot b := by
    have htouches := Cells.touches_lay_blank.mpr (hlength.symm ▸ hslot)
    cases hb : (s.records.inode i).block? slot with
    | some b => exact ⟨b, Records.ne_free_of_file h.kind, hb⟩
    | none => exact absurd htouches (h.shows.hole slot (Records.content_eq_none_iff.mpr hb))
  have hroot : s.records.kind rootInode = .directory := hs.tidy.tree.root
  have hne : rootInode ≠ i := by
    rintro rfl
    cases hroot.symm.trans h.kind
  obtain ⟨b, hb⟩ := hown 0 (by omega)
  obtain ⟨b', hb'⟩ := hown 1 (by omega)
  have htable := hexact.owns_tableBlock hroot
  have hrange := hexact.blocks.range i 0 b hb
  have hrange' := hexact.blocks.range i 1 b' hb'
  have hrangeTable := hexact.blocks.range rootInode 0 _ htable
  have hfirst : Layout.tight.firstDataBlock = 5 := by decide
  have hcount : Layout.tight.blockCount = 7 := by decide
  have hbb' : b ≠ b' := by
    rintro rfl
    cases (hexact.blocks.once i 0 i 1 b hb hb').2
  have hbTable : s.records.tableBlock rootInode ≠ b := by
    rintro rfl
    exact hne (hexact.blocks.once rootInode 0 i 0 _ htable hb).1
  have hbTable' : s.records.tableBlock rootInode ≠ b' := by
    rintro rfl
    exact hne (hexact.blocks.once rootInode 0 i 1 _ htable hb').1
  omega

theorem reached_tight : Reached ⟨7, 8, 1⟩ Service.tight fun _ => [] := by
  obtain ⟨s, history, hformat, -⟩ := format_eq Layout.ofGeometry_tight .empty 0
  have htight : Service.tight = .new (Settled.state s history) := by
    rw [Service.tight, leftBy, hformat]
  rw [htight]
  exact .new hformat

/-- A file of more than a block is packed on a volume of which one block is free. -/
theorem Scene.exists_packed_tight (hlong : blockSize < contents.length) :
    ∃ (s s' : Scene .tight) (history' : History),
      packAll [("a", contents)] Service.tight.volume = .ok 1 (Settled.state s' history') ∧
      s.Packs [("a", contents)] 1 s' ∧ s'.mounted = true ∧ s.taken (key "a") = false := by
  obtain ⟨s, history, hformat, hnew⟩ := format_eq Layout.ofGeometry_tight .empty 0
  have hvolume : Service.tight.volume = Settled.state s history := by
    rw [Service.tight, leftBy, hformat]
    rfl
  have hdata : contents ≠ [] := List.length_pos_iff.mp (Nat.lt_of_le_of_lt (Nat.zero_le _) hlong)
  obtain ⟨s', hpack, hpacks, hfresh⟩ :=
    hnew.packs (by decide) (by decide) StoredName.encode_a (by decide) hdata
  have hdoes : Does (packAll [("a", contents)]) s (.ok 1) s' :=
    hpack.bind ((Does.pure 0 _).bind (Does.pure _ _))
  obtain ⟨history', hpacked⟩ := hdoes history
  refine ⟨s, s', history', ?_, hpacks, hpacks.mounted.trans hnew.mounted, hfresh⟩
  rw [hvolume, hpacked]
  rfl

/-- Of a file of more than a block, one block is kept. -/
theorem Service.exists_cut_tight (hlong : blockSize < contents.length) :
    ∃ v' i, packAll [("a", contents)] Service.tight.volume = .ok 1 v' ∧
      v'.Answers (find rootInode "a") (.ok i) ∧ v'.Answers (fileSize i) (.ok blockSize) := by
  let file : String × List UInt8 := ("a", contents)
  obtain ⟨s, s', history', hpacked, hpacks, hm, hfresh⟩ :=
    Scene.exists_packed_tight hlong
  have hfresh : s.taken (key file.1) = false := hfresh
  obtain ⟨short, hcopied⟩ := hpacks.copied
  rw [freshFiles_of_fresh hfresh] at hcopied
  obtain ⟨i, n, hholds, -, hcut⟩ := hcopied _ (List.mem_cons_self ..)
  have hname := hpacks.storable _ (List.mem_singleton_self _)
  have hle := hholds.le_blockSize hpacks.good
  have hn : n = blockSize := by
    rcases hcut with hwhole | ⟨-, hcut⟩
    · have hwhole : n = min contents.length maxFileSize := hwhole
      simp only [maxFileSize, pointerCount, blockSize] at hwhole hlong hle ⊢
      omega
    · have hpos := hcut.pos
      have haligned := hcut.aligned
      simp only [blockSize] at hle haligned ⊢
      omega
  subst hn
  have hfile := hholds.copied hm hpacks.good hname history'
  exact ⟨_, i, hpacked, hfile.found, hfile.size⟩

/-- One file was packed, and of its 1500 bytes 476 are missing. -/
theorem Reached.packing_loses_contents_tight :
    let contents := List.replicate 1500 (0x78 : UInt8)
    ∃ v' i, Reached ⟨7, 8, 1⟩ Service.tight (fun _ => []) ∧
      packAll [("a", contents)] Service.tight.volume = .ok 1 v' ∧
      v'.Answers (find rootInode "a") (.ok i) ∧ v'.Answers (fileSize i) (.ok 1024) ∧
      min contents.length maxFileSize = 1500 := by
  have hlength : (List.replicate 1500 (0x78 : UInt8)).length = 1500 := List.length_replicate
  have hlong : blockSize < (List.replicate 1500 (0x78 : UInt8)).length := by
    rw [hlength]
    decide
  obtain ⟨v', i, hpacked, hfound, hsize⟩ := Service.exists_cut_tight hlong
  exact ⟨v', i, reached_tight, hpacked, hfound, hsize, congrArg (min · maxFileSize) hlength⟩

/-- The same file is the one that was cut short. -/
theorem Reached.packing_exact_tight :
    let files := [("a", List.replicate 1500 (0x78 : UInt8))]
    ∃ v', Reached ⟨7, 8, 1⟩ Service.tight (fun _ => []) ∧
      Layout.ofGeometry ⟨7, 8, 1⟩ = .ok .tight ∧
      packAll files Service.tight.volume = .ok 1 v' ∧
      Service.tight.volume.Packs .tight files 1 v' := by
  have hlong : blockSize < (List.replicate 1500 (0x78 : UInt8)).length := by
    rw [List.length_replicate]
    decide
  obtain ⟨v', i, hpacked, -⟩ := Service.exists_cut_tight hlong
  exact ⟨v', reached_tight, Layout.ofGeometry_tight, hpacked,
    reached_tight.packing_exact Layout.ofGeometry_tight _ hpacked⟩

end BlockFS
