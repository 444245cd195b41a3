import BlockFS.Proofs.AllocationExact
import BlockFS.Proofs.Faults.Calls
import BlockFS.Proofs.Faults.Making
import BlockFS.Proofs.Faults.Writing

/-!
# Writes stay in their files

Whatever transfers fail during a write into a file, the file points to blocks that it had or that were
free, it keeps the bytes that were not written over, and nothing that is in use besides the file
changes.  A write is a row of complete steps and at most one torn step, and every step is confined to
the file; being confined is transitive.
-/

namespace BlockFS

open Volume

variable {l : Layout} {g : Geometry} {v : Service} {logs : Logs} {plan : FaultPlan}

namespace Records

/-- What changed is confined to a file, of which the `length` bytes from `offset` on may be written
over. -/
structure Confined (f offset length : Nat) (c c' : Records) : Prop where
  used : ∀ r i, c.used r i = true → c'.used r i = true
  inode : ∀ i, i ≠ f → c.used .inode i = true → c'.inode i = c.inode i
  block : ∀ b, c.used .block b = true → (∀ slot, (c.inode f).block? slot ≠ some b) →
    c'.block b = c.block b
  pointer : ∀ slot, (c'.inode f).block? slot = (c.inode f).block? slot ∨
    (c.inode f).block? slot = none ∧ ∃ b, (c'.inode f).block? slot = some b ∧
      c.used .block b = false ∧ c'.used .block b = true
  once : ∀ slot slot' b, (c'.inode f).block? slot = some b → (c'.inode f).block? slot' = some b →
    slot = slot'
  size : (c'.inode f).size = (c.inode f).size ∨ ∃ n, 0 < n ∧ n ≤ length ∧
    (c.inode f).size.toNat < offset + n ∧ (c'.inode f).size.toNat = offset + n
  byte : ∀ slot z, c.content f slot = some z → ∃ z', c'.content f slot = some z' ∧
    ∀ j (hj : j < blockSize),
      ¬ (offset ≤ slot * blockSize + j ∧ slot * blockSize + j < offset + length) → z'[j] = z[j]

variable {c c' c'' : Records} {f offset length : Nat} {x : Inode}

theorem Confined.trans (h : Confined f offset length c c') (h' : Confined f offset length c' c'') :
    Confined f offset length c c'' where
  used r i hi := h'.used r i (h.used r i hi)
  inode i hne hi := (h'.inode i hne (h.used _ i hi)).trans (h.inode i hne hi)
  block b hb hnot := by
    refine (h'.block b (h.used _ b hb) fun slot hslot => ?_).trans (h.block b hb hnot)
    rcases h.pointer slot with hsame | ⟨-, b', hnew, hfree, -⟩
    · exact hnot slot (hsame.symm.trans hslot)
    · obtain rfl := Option.some.inj (hslot.symm.trans hnew)
      rw [hb] at hfree
      cases hfree
  pointer slot := by
    rcases h'.pointer slot with hsame' | ⟨hhole', b, hnew, hfree, hused⟩
    · rw [hsame']
      refine (h.pointer slot).imp_right fun ⟨hhole, b, hnew, hfree, hused⟩ => ?_
      exact ⟨hhole, b, hnew, hfree, h'.used _ b hused⟩
    · right
      have hhole : (c.inode f).block? slot = none := by
        rcases h.pointer slot with hsame | ⟨hhole, -⟩
        · exact hsame.symm.trans hhole'
        · exact hhole
      refine ⟨hhole, b, hnew, ?_, hused⟩
      by_contra hb
      rw [h.used _ b (eq_true_of_ne_false hb)] at hfree
      cases hfree
  once := h'.once
  size := by
    rcases h'.size with hsame' | ⟨n, hpos, hle, hlt, hsize⟩
    · rw [hsame']
      exact h.size
    · refine .inr ⟨n, hpos, hle, ?_, hsize⟩
      rcases h.size with hsame | ⟨m, -, -, hgrew, hm⟩
      · rw [← hsame]
        exact hlt
      · omega
  byte slot z hz := by
    obtain ⟨z', hz', hkept⟩ := h.byte slot z hz
    obtain ⟨z'', hz'', hkept'⟩ := h'.byte slot z' hz'
    exact ⟨z'', hz'', fun j hj hout => (hkept' j hj hout).trans (hkept j hj hout)⟩

/-- Only the record of the file changed, and what was not in use: at most one hole got a block that was
free. -/
theorem Extends.confined (slot b : Nat) (he : Extends c c') (h : c.Exact l) (hf : c.kind f ≠ .free)
    (hpointer : ∀ k, x.block? k = (c.inode f).block? k ∨ k = slot ∧
      (c.inode f).block? k = none ∧ x.block? k = some b ∧ c.used .block b = false ∧
      c'.used .block b = true)
    (hsize : x.size = (c.inode f).size ∨ ∃ n, 0 < n ∧ n ≤ length ∧
      (c.inode f).size.toNat < offset + n ∧ x.size.toNat = offset + n) :
    Confined f offset length c (c'.putInode f x) := by
  have hx : (c'.putInode f x).inode f = x := Function.update_self ..
  have hown {k y : Nat} (hk : (c.inode f).block? k = some y) : c.Owns f k y := ⟨hf, hk⟩
  constructor
  · exact he.used
  · exact fun i hne hi => (Function.update_of_ne hne ..).trans (he.inode i hi)
  · exact fun y hy _ => he.block y hy
  · intro k
    rw [hx]
    exact (hpointer k).imp_right fun ⟨_, hhole, hnew⟩ => ⟨hhole, b, hnew⟩
  · intro k k' y hk hk'
    rw [hx] at hk hk'
    -- A block that was free has no owner, so the old pointers and the new one differ.
    rcases hpointer k with hsame | ⟨hslot, -, hnew, hfree, -⟩
    · rw [hsame] at hk
      rcases hpointer k' with hsame' | ⟨-, -, hnew', hfree, -⟩
      · rw [hsame'] at hk'
        exact (h.blocks.once f k f k' y (hown hk) (hown hk')).2
      · obtain rfl := Option.some.inj (hk'.symm.trans hnew')
        exact absurd (hown hk) (h.blocks.not_owns_of_free hfree)
    · obtain rfl := Option.some.inj (hk.symm.trans hnew)
      rcases hpointer k' with hsame' | ⟨hslot', -⟩
      · rw [hsame'] at hk'
        exact absurd (hown hk') (h.blocks.not_owns_of_free hfree)
      · exact hslot.trans hslot'.symm
  · rw [hx]
    exact hsize
  · intro k z hz
    cases hk : (c.inode f).block? k with
    | none =>
      rw [content, hk] at hz
      cases hz
    | some y =>
      rw [(hown hk).content_eq] at hz
      obtain rfl := Option.some.inj hz
      have hk' : x.block? k = some y := by
        rcases hpointer k with hsame | ⟨-, hhole, -⟩
        · exact hsame.trans hk
        · rw [hk] at hhole
          cases hhole
      refine ⟨c.block y, ?_, fun _ _ _ => rfl⟩
      rw [content_putInode_self, hk', Option.map_some, he.block y (h.blocks.used_of_owns (hown hk))]

theorem putInode_inode (c : Records) (i : Nat) : c.putInode i (c.inode i) = c := by
  simp only [putInode, Function.update_eq_self]

/-- What was not in use changed, and nothing else. -/
theorem Extends.confined_of_inode (he : Extends c c') (h : c.Exact l) (hf : c.kind f ≠ .free) :
    Confined f offset length c c' := by
  have hsame := he.inode f (used_of_kind_ne hf)
  have hconfined : Confined f offset length c (c'.putInode f (c.inode f)) :=
    he.confined 0 0 h hf (fun _ => .inl rfl) (.inl rfl)
  rw [← hsame, putInode_inode] at hconfined
  exact hconfined

end Records

namespace Scene

variable {s t s' : Scene l} {f offset length slot n : Nat} {e : Error} {cells : Cells}
  {data : List UInt8} {x : Inode}

/-! ## Complete steps -/

/-- A complete step of a write is confined to the file. -/
theorem Writes.confined (w : Writes f s t) (h : s.records.Tidy l) (hf : s.records.kind f = .file)
    (hsize : (t.records.inode f).size = (s.records.inode f).size)
    (hbyte : ∀ slot z z', s.records.content f slot = some z → t.records.content f slot = some z' →
      ∀ j (hj : j < blockSize),
        ¬ (offset ≤ slot * blockSize + j ∧ slot * blockSize + j < offset + length) →
        z'[j] = z[j]) :
    s.records.Confined f offset length t.records where
  used := w.used h
  inode i hne _ := w.inode i hne
  block := w.block h
  pointer := w.pointer h hf
  once k k' b hk hk' := by
    have hlive : t.records.kind f ≠ .free := Records.ne_free_of_file ((w.kind_eq f).trans hf)
    exact (w.tidy.blocks.once f k f k' b ⟨hlive, hk⟩ ⟨hlive, hk'⟩).2
  size := .inl hsize
  byte slot z hz := by
    obtain ⟨b, hb, -⟩ := Option.map_eq_some_iff.mp hz
    have hz' : t.records.content f slot = some (t.records.block b) := by
      rw [Records.content, w.points slot b hb, Option.map_some]
    exact ⟨_, hz', hbyte slot z _ hz hz'⟩

section

variable (h : s.records.Tidy l) (hf : s.records.kind f = .file)

include h hf

theorem confined_refl : s.records.Confined f offset length s.records :=
  (Records.Extends.refl _).confined_of_inode h.toExact (Records.ne_free_of_file hf)

/-- The data that came into the file is all that changed its bytes. -/
theorem Advances.confined (ha : Advances plan f offset data cells s t n)
    (hshow : Cells.Shows (s.records.content f) cells) :
    s.records.Confined f offset data.length t.records := by
  refine ha.writes.confined h hf ha.size fun slot z z' hz hz' j hj hout => ?_
  have hle := ha.le
  have hlength : (data.take n).length = n := by rw [List.length_take, Nat.min_eq_left hle]
  rw [ha.shows.value slot z' hz' j hj, hshow.value slot z hz j hj, Cells.value, Cells.value]
  rcases Nat.lt_or_ge (slot * blockSize + j) offset with hlt | hge
  · rw [Cells.lay_of_lt hlt]
  · have hpast : offset + (data.take n).length ≤ slot * blockSize + j := by omega
    rw [Cells.lay_of_ge hpast]

theorem Supplies.confined {b : Nat} (hw : Supplies f slot b s t) :
    s.records.Confined f offset length t.records := by
  refine hw.writes.confined h hf hw.size fun k z z' hz hz' j hj _ => ?_
  have hsame : t.records.content f k = some z := by
    rw [hw.content, Function.update_apply]
    split
    · next hk => rw [← hk, hz, Option.getD_some]
    · exact hz
  obtain rfl := Option.some.inj (hz'.symm.trans hsame)
  rfl

/-! ## Torn steps -/

theorem HalfTaken.confined (hx : s.HalfTaken plan e s') :
    s.records.Confined f offset length s'.records := by
  rcases hx.records with rfl | ⟨b, used, z, hlowest, hrecords, -⟩
  · exact confined_refl h hf
  · have hb := (Records.lowestFree_eq_some_iff.mp hlowest).2.2.1
    rw [hrecords]
    exact (((Records.Extends.refl _).mark hb used).putBlock hb).confined_of_inode h.toExact
      (Records.ne_free_of_file hf)

/-- A block of the file of which one half was written. -/
theorem Torn.confined {b : Nat} {z : Block} (hx : s.Torn plan b z e s')
    (hown : s.records.Owns f slot b)
    (hz : ∀ j (hj : j < blockSize),
      ¬ (offset ≤ slot * blockSize + j ∧ slot * blockSize + j < offset + length) →
      z[j] = (s.records.block b)[j]) :
    s.records.Confined f offset length s'.records := by
  rcases hx with ⟨rfl, -⟩ | ⟨rfl, -⟩
  · exact confined_refl h hf
  · obtain ⟨hw, hinode, hcontent⟩ := writes_putBlock h hf hown
      (.splice sectorSize z (s.store.block b))
    obtain ⟨hge, hlt⟩ := h.blocks.range f slot b hown
    refine hw.confined h hf (congrArg Inode.size hinode) fun k y y' hy hy' j hj hout => ?_
    rw [hcontent, Function.update_apply] at hy'
    split at hy'
    · next hk =>
      subst hk
      obtain rfl := Option.some.inj hy'
      rw [hown.content_eq] at hy
      obtain rfl := Option.some.inj hy
      rw [Bytes.getElem_splice, ← records_block hge hlt, hz j hj hout, ite_self]
    · obtain rfl := Option.some.inj (hy'.symm.trans hy)
      rfl

/-- A record of the file of which some was written.  Each number in it is the old or the new one. -/
theorem TornInode.confined (slot b : Nat) (hx : t.TornInode plan f x e s')
    (he : s.records.Extends t.records)
    (hpointer : ∀ k, x.block? k = (s.records.inode f).block? k ∨ k = slot ∧
      (s.records.inode f).block? k = none ∧ x.block? k = some b ∧
      s.records.used .block b = false ∧ t.records.used .block b = true)
    (hhigh : x.size.toNat / 0x10000 = (s.records.inode f).size.toNat / 0x10000)
    (hsize : x.size = (s.records.inode f).size ∨ ∃ n, 0 < n ∧ n ≤ length ∧
      (s.records.inode f).size.toNat < offset + n ∧ x.size.toNat = offset + n) :
    s.records.Confined f offset length s'.records := by
  have hlive := Records.ne_free_of_file hf
  obtain ⟨cut, heven, -, hrecords⟩ := hx.records
  rw [hrecords, he.inode f (Records.used_of_kind_ne hlive)]
  refine he.confined slot b h.toExact hlive (fun k => ?_) ?_
  · rcases Inode.block?_mixed (x := x) (y := s.records.inode f) heven k with hmixed | hmixed
    · rw [hmixed]
      exact hpointer k
    · exact .inl hmixed
  · rcases Inode.size_mixed heven hhigh with hmixed | hmixed
    · rw [hmixed]
      exact hsize
    · exact .inl hmixed

/-- A step of a write that broke off is confined to the file. -/
theorem BrokenOff.confined (hx : s.BrokenOff plan f offset (offset + length) e s') :
    s.records.Confined f offset length s'.records := by
  cases hx with
  | looking same _ =>
    subst same
    exact confined_refl h hf
  | taking torn => exact torn.confined h hf
  | @pointing slot b hole slot_lt lowest torn =>
    obtain ⟨-, hlt, hb, -⟩ := Records.lowestFree_eq_some_iff.mp lowest
    have hge := h.reserves.le_of_free hb
    have hrecords : ((s.mark .block b true).putBlock b .zero).records
        = (s.records.mark .block b true).putBlock b .zero := by
      rw [records_putBlock _ hge hlt, records_mark (r := .block) _ hlt]
    refine torn.confined h hf slot b ?_ (fun k => ?_) rfl (.inl rfl)
    · rw [hrecords]
      exact ((Records.Extends.refl _).mark hb true).putBlock hb
    · rw [Inode.block?_setPointer slot_lt (h.toExact.ne_zero_of_free hb)
        (l.small_of_lt (r := .block) hlt)]
      by_cases hk : k = slot
      · subst hk
        rw [if_pos rfl, hrecords]
        exact .inr ⟨rfl, hole, rfl, hb, if_pos ⟨rfl, rfl⟩⟩
      · rw [if_neg hk]
        exact .inl rfl
  | @filling slot b byte bytes t supplied behind before torn =>
    refine (supplied.confined h hf).trans
      (torn.confined supplied.writes.tidy (supplied.kind hf) supplied.owns fun j hj hout => ?_)
    have hcontent := supplied.owns.content_eq
    rw [supplied.content, Function.update_self] at hcontent
    rw [Bytes.getElem_write, ← Option.some.inj hcontent]
    split
    · next hle =>
      have hnone : bytes[j - byte]? = none := List.getElem?_eq_none (by omega)
      rw [hnone, Option.getD_none]
    · rfl

end

/-! ## Whole writes -/

/-- The record that ends a write tells the old size or the end of the data that came in. -/
theorem Advances.size_reaching (ha : Advances plan f offset data cells s t n) (hn : n ≠ 0)
    (mtime : UInt32) :
    let y := (t.records.inode f).reaching (offset + n) mtime
    y.size.toNat / 0x10000 = (t.records.inode f).size.toNat / 0x10000 ∧
      (y.size = (t.records.inode f).size ∨ ∃ n, 0 < n ∧ n ≤ data.length ∧
        (t.records.inode f).size.toNat < offset + n ∧ y.size.toNat = offset + n) := by
  intro y
  have hfits := ha.fits hn
  simp only [pointerCount, blockSize] at hfits
  have hy : y.size.toNat = max (t.records.inode f).size.toNat (offset + n) :=
    Inode.toNat_size_reaching (by simp only [UInt32.size]; omega)
  rcases Nat.lt_or_ge (t.records.inode f).size.toNat (offset + n) with hlt | hge
  · exact ⟨by omega, .inr ⟨n, Nat.pos_of_ne_zero hn, ha.le, hlt, by omega⟩⟩
  · have hsame : y.size.toNat = (t.records.inode f).size.toNat := by omega
    exact ⟨by rw [hsame], .inl (UInt32.toNat.inj hsame)⟩

theorem Closed.confined (hx : t.Closed f (offset + n) s')
    (ha : Advances plan f offset data cells s t n) (hn : n ≠ 0)
    (hf : t.records.kind f = .file) :
    t.records.Confined f offset data.length s'.records := by
  obtain ⟨mtime, rfl⟩ := hx
  have hlive := Records.ne_free_of_file hf
  have hlt := ha.writes.tidy.lt_of_live hlive
  rw [records_putInode _ hlt]
  exact (Records.Extends.refl _).confined 0 0 ha.writes.tidy.toExact hlive (fun _ => .inl rfl)
    (ha.size_reaching hn mtime).2

theorem Unclosed.confined (hx : t.Unclosed plan f (offset + n) e s')
    (ha : Advances plan f offset data cells s t n) (hn : n ≠ 0)
    (hf : t.records.kind f = .file) :
    t.records.Confined f offset data.length s'.records := by
  obtain ⟨mtime, torn⟩ := hx
  obtain ⟨hhigh, hsize⟩ := ha.size_reaching hn mtime
  exact torn.confined ha.writes.tidy hf 0 0 (.refl _) (fun _ => .inl rfl) hhigh hsize

end Scene

/-- However a write ends, it is confined to the file. -/
theorem Volume.ends_writeAt_confined {s : Scene l} {f : Nat} (h : s.records.Tidy l)
    (hf : s.records.kind f = .file) (offset : Nat) (data : List UInt8) :
    Ends plan (writeAt f offset data) s
      (fun _ s' => s.records.Confined f offset data.length s'.records)
      (fun _ s' => s.records.Confined f offset data.length s'.records) := by
  have hshow := Cells.shows_ofContent (s.records.content f)
  by_cases hm : s.mounted = true
  · refine (ends_writeAt hm h hf hshow offset data).mono (fun n s' hx => ?_) fun e s' hx => ?_
    · obtain ⟨t, ha, ⟨-, rfl, -⟩ | ⟨hn, hclosed, -⟩⟩ := hx
      · exact ha.confined h hf hshow
      · exact (ha.confined h hf hshow).trans
          (hclosed.confined ha hn ((ha.writes.kind_eq f).trans hf))
    · obtain ⟨t, n, ha, hbroken | ⟨hn, hunclosed⟩⟩ := hx
      · exact (ha.confined h hf hshow).trans
          (hbroken.confined ha.writes.tidy ((ha.writes.kind_eq f).trans hf))
      · exact (ha.confined h hf hshow).trans
          (hunclosed.confined ha hn ((ha.writes.kind_eq f).trans hf))
  · refine (ends_writeAt_other (fun hfile => hm hfile.1) offset data).mono
      (fun _ _ hx => hx.elim) fun e s' hx => ?_
    subst hx
    exact Scene.confined_refl h hf

/-- Whatever transfers fail during a write into a linked file, what it leaves on the device differs from
what was there in this file only, in its bytes that were written over and in the blocks and the size that
it needs to hold them. -/
theorem Reached.write_confined (h : Reached g v logs) (hl : Layout.ofGeometry g = .ok l) {f : Nat}
    (hf : (v.volume.records l).written.Linked f)
    (hk : ((v.volume.records l).inode f).kind = .file) (plan : FaultPlan) (offset : Nat)
    (data : List UInt8) :
    let v' := leftBy (writeAt f offset data) (v.volume.withFaults plan)
    l.Reads (v'.device.withFaults .never) (v'.records l) ∧
      (v.volume.records l).Confined f offset data.length (v'.records l) ∧
      ∀ i, i ≠ f → (v.volume.records l).written.Linked i →
        (v'.records l).inode i = (v.volume.records l).inode i ∧
        ∀ slot b, ((v.volume.records l).inode i).block? slot = some b →
          (v'.records l).block b = (v.volume.records l).block b := by
  intro v'
  have htidy := h.tidy hl
  have hlive {i : Nat} (hi : (v.volume.records l).written.Linked i) :=
    htidy.linked_written_iff.mp hi
  have hkind : (v.volume.records l).kind f = .file := by
    rw [Records.kind_of_used (Records.used_of_kind_ne (hlive hf)), hk]
  have hends (s : Scene l) (hs : s.Good) : Ends plan (writeAt f offset data) s
      (fun _ s' => s.records.kind f = .file →
        s.records.Confined f offset data.length s'.records)
      (fun _ s' => s.records.kind f = .file →
        s.records.Confined f offset data.length s'.records) := by
    by_cases hfile : s.records.kind f = .file
    · exact (ends_writeAt_confined hs.tidy hfile offset data).mono (fun _ _ hx _ => hx)
        fun _ _ hx _ => hx
    · exact (ends_writeAt_other (fun hboth => hfile hboth.2) offset data).mono
        (fun _ _ hx => hx.elim) fun _ _ _ hno => absurd hno hfile
  obtain ⟨s, s', hrecords, hrecords', -, hconfined, hreads⟩ := h.exists_scene_of_left hl hends
  rw [hrecords] at hkind
  have hconfined := hconfined hkind
  rw [← hrecords, ← hrecords'] at hconfined
  refine ⟨hreads, hconfined, fun i hne hi => ⟨?_, fun slot b hb => ?_⟩⟩
  · exact hconfined.inode i hne (Records.used_of_kind_ne (hlive hi))
  · have hown : (v.volume.records l).Owns i slot b := ⟨hlive hi, hb⟩
    refine hconfined.block b (htidy.blocks.used_of_owns hown) fun slot' hb' => hne ?_
    exact (htidy.blocks.once i slot f slot' b hown ⟨hlive hf, hb'⟩).1

/-- The file `a` on a floppy disk, into which a byte is written while its record cannot be. -/
theorem Reached.write_confined_floppy :
    let v := (Call.edit (.makeFile rootInode "a")).after Service.floppy
    let v' := leftBy (writeAt 2 0 [1]) (v.volume.withFaults (.refusing [8]))
    ∃ logs, Reached .floppy v logs ∧ Layout.ofGeometry .floppy = .ok .floppy ∧
      (v.volume.records .floppy).written.Linked 2 ∧
      ((v.volume.records .floppy).inode 2).kind = .file ∧
      Layout.floppy.Reads (v'.device.withFaults .never) (v'.records .floppy) ∧
      (v.volume.records .floppy).Confined 2 0 1 (v'.records .floppy) ∧
      ∀ i, i ≠ 2 → (v.volume.records .floppy).written.Linked i →
        (v'.records .floppy).inode i = (v.volume.records .floppy).inode i ∧
        ∀ slot b, ((v.volume.records .floppy).inode i).block? slot = some b →
          (v'.records .floppy).block b = (v.volume.records .floppy).block b := by
  obtain ⟨logs, slot, history, s, hreached, hvolume, hone⟩ := reached_oneFile
  have hrecords : ((Call.edit (.makeFile rootInode "a")).after Service.floppy).volume.records .floppy
      = s.records := by
    rw [hvolume]
    rfl
  obtain ⟨hlinked, hkind⟩ := hone.linked_file
  rw [← hrecords] at hlinked hkind
  exact ⟨logs, hreached, Layout.ofGeometry_floppy, hlinked, hkind,
    hreached.write_confined Layout.ofGeometry_floppy hlinked hkind (.refusing [8]) 0 [1]⟩

end BlockFS
