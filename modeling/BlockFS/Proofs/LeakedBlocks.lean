import BlockFS.Proofs.Faults.Calls
import BlockFS.Proofs.Faults.Writing

/-!
# Blocks lost by failed writes

A write that fails has taken blocks for its file, and the file points to all of them but the last one.
That one is lost if the record of the file could not be written, since nobody takes it back.
-/

namespace BlockFS

open Volume

variable {l : Layout} {g : Geometry} {v : Service} {logs : Logs} {plan : FaultPlan}

namespace Records

/-- The blocks that came into use are those that an inode points to, and at most one other. -/
def Gains (c c' : Records) (i : Nat) (lost : Option Nat) : Prop :=
  ∀ b, c.used .block b = false → c'.used .block b = true →
    lost = some b ∨ ∃ k, (c'.inode i).block? k = some b

variable {c c' c'' : Records} {i b : Nat} {lost : Option Nat}

/-- No further block came into use, and the inode points to what it pointed to. -/
theorem Gains.mono (h : Gains c c' i lost)
    (hused : ∀ b, c''.used .block b = true → c'.used .block b = true)
    (hpoints : ∀ k b, (c'.inode i).block? k = some b → (c''.inode i).block? k = some b) :
    Gains c c'' i lost := by
  intro b hfree hb
  exact (h b hfree (hused b hb)).imp_right fun ⟨k, hk⟩ => ⟨k, hpoints k b hk⟩

/-- One more block came into use. -/
theorem Gains.mark (h : Gains c c' i none) (b : Nat) :
    Gains c (c'.mark .block b true) i (some b) := by
  intro y hfree hused
  by_cases hy : y = b
  · exact .inl (congrArg some hy.symm)
  · have hused' : (if Resource.block = .block ∧ y = b then true else c'.used .block y) = true := hused
    rw [if_neg fun he => hy he.2] at hused'
    exact .inr ((h y hfree hused').resolve_left (fun he => nomatch he))

end Records

namespace Scene

variable {s t s' : Scene l} {i slot b : Nat} {x : Inode} {z : Block} {e : Error}

/-- All blocks that a write took so far belong to its file. -/
theorem Writes.gains (w : Writes i s t) (h : s.records.Tidy l) :
    s.records.Gains t.records i none := by
  intro b hfree hused
  obtain ⟨j, k, hown⟩ := (w.tidy.blocks.used_iff b (h.blocks.ge_of_free hfree)).mp hused
  by_cases hj : j = i
  · subst hj
    exact .inr ⟨k, hown.points⟩
  · have hlive : s.records.kind j ≠ .free := by
      rw [← w.kind_eq]
      exact hown.live
    have hpoints : (s.records.inode j).block? k = some b := by
      rw [← w.inode j hj]
      exact hown.points
    exact absurd ⟨hlive, hpoints⟩ (h.blocks.not_owns_of_free hfree)

theorem HalfTaken.gains (hx : t.HalfTaken plan e s') (hgains : s.records.Gains t.records i none)
    (hbitmap : ¬ plan.Strikes (Transfer.OfBitmap l .block) e) :
    s.records.Gains s'.records i none := by
  rcases hx.records with rfl | ⟨y, used, z, -, hrecords, hstruck⟩
  · exact hgains
  · rw [hrecords]
    refine hgains.mono (fun b hb => ?_) fun _ _ hk => hk
    have hb : (if Resource.block = .block ∧ b = y then used else t.records.used .block b) = true := hb
    split at hb
    · exact absurd (hstruck hb) hbitmap
    · exact hb

/-- A record that was to change no pointer but that of a hole keeps the others, however much of it was
written. -/
theorem TornInode.gains {lost : Option Nat} (hx : t.TornInode plan i x e s')
    (hgains : s.records.Gains t.records i lost)
    (hpoints : ∀ k b, (t.records.inode i).block? k = some b → x.block? k = some b) :
    s.records.Gains s'.records i lost := by
  obtain ⟨cut, heven, -, hrecords⟩ := hx.records
  rw [hrecords]
  refine hgains.mono (fun _ hb => hb) fun k b hk => ?_
  rw [Records.inode_putInode, if_pos rfl]
  rcases Inode.block?_mixed (x := x) (y := t.records.inode i) heven k with hmixed | hmixed
  · exact hmixed.trans (hpoints k b hk)
  · exact hmixed.trans hk

/-- A span that fails loses at most the block that it took. -/
theorem BrokenOff.gains {first stop : Nat} (hx : t.BrokenOff plan i first stop e s')
    (w : Writes i s t) (h : s.records.Tidy l)
    (hbitmap : ¬ plan.Strikes (Transfer.OfBitmap l .block) e) :
    ∃ lost : Option Nat, (lost ≠ none → plan.Strikes (Transfer.OfTable l) e) ∧
      s.records.Gains s'.records i lost := by
  have hgains := w.gains h
  have hnone (hgains : s.records.Gains s'.records i none) :
      ∃ lost : Option Nat, (lost ≠ none → plan.Strikes (Transfer.OfTable l) e) ∧
        s.records.Gains s'.records i lost :=
    ⟨none, fun hne => absurd rfl hne, hgains⟩
  cases hx with
  | looking same _ =>
    subst same
    exact hnone hgains
  | taking torn => exact hnone (torn.gains hgains hbitmap)
  | @pointing slot b hole slot_lt lowest torn =>
    obtain ⟨-, hlt, hb, -⟩ := Records.lowestFree_eq_some_iff.mp lowest
    have hge := w.tidy.reserves.le_of_free hb
    have hrecords : ((t.mark .block b true).putBlock b .zero).records
        = (t.records.mark .block b true).putBlock b .zero := by
      rw [records_putBlock _ hge hlt, records_mark (r := .block) _ hlt]
    refine ⟨some b, fun _ => torn.strikes, torn.gains ?_ fun k y hk => ?_⟩
    · rw [hrecords]
      exact (hgains.mark b).mono (fun _ hb => hb) fun _ _ hk => hk
    · rw [hrecords] at hk
      have hk : (t.records.inode i).block? k = some y := hk
      have hne : k ≠ slot := by
        rintro rfl
        rw [hole] at hk
        cases hk
      rw [Inode.block?_setPointer slot_lt (w.tidy.toExact.ne_zero_of_free hb)
        (l.small_of_lt (r := .block) hlt), if_neg hne, hk]
  | @filling slot b byte bytes u supplied _ _ torn =>
    have w' := w.trans supplied.writes
    obtain ⟨hge, hlt⟩ := w'.tidy.blocks.range i slot b supplied.owns
    obtain ⟨y, rfl⟩ := torn.exists_putBlock hge hlt
    refine hnone ?_
    rw [records_putBlock _ hge hlt]
    exact (w'.gains h).mono (fun _ hb => hb) fun _ _ hk => hk

end Scene

/-- Where no transfer failed before, a write that fails while all transfers of the block bitmap succeed
loses no block, except one where a transfer of the inode table failed. -/
theorem Reached.failed_write_loses_one (h : Reached g v logs) (hl : Layout.ofGeometry g = .ok l)
    (plan : FaultPlan) (hbitmap : ∀ history t, t.OfBitmap l .block → plan history t = none)
    (f offset : Nat) (data : List UInt8) {e : Error} {v' : Volume}
    (herror : writeAt f offset data (v.volume.withFaults plan) = .error e v') :
    l.Reads (v'.device.withFaults .never) (v'.records l) ∧
      ∃ lost : Option Nat, (lost ≠ none → plan.Strikes (Transfer.OfTable l) e) ∧
        ∀ b, (v.volume.records l).used .block b = false → (v'.records l).used .block b = true →
          lost = some b ∨ ∃ k, ((v'.records l).inode f).block? k = some b := by
  have hnever : ¬ plan.Strikes (Transfer.OfBitmap l .block) e := by
    rintro ⟨t, history, cause, ht, hplan, -⟩
    rw [hbitmap history t ht] at hplan
    cases hplan
  have hends (s : Scene l) (hs : s.Good) : Ends plan (writeAt f offset data) s (fun _ _ => True)
      (fun e s' => ¬ plan.Strikes (Transfer.OfBitmap l .block) e →
        ∃ lost : Option Nat, (lost ≠ none → plan.Strikes (Transfer.OfTable l) e) ∧
          s.records.Gains s'.records f lost) := by
    by_cases hf : s.mounted = true ∧ s.records.kind f = .file
    · refine (ends_writeAt hf.1 hs.tidy hf.2 (Cells.shows_ofContent _) offset data).mono
        (fun _ _ _ => trivial) fun e s' he hnever => ?_
      obtain ⟨t, n, hadvances, hbroken | ⟨-, mtime, torn⟩⟩ := he
      · exact hbroken.gains hadvances.writes hs.tidy hnever
      · exact ⟨none, fun hne => absurd rfl hne,
          torn.gains (hadvances.writes.gains hs.tidy) fun _ _ hk => hk⟩
    · refine (ends_writeAt_other hf offset data).mono (fun _ _ _ => trivial) fun e s' he _ => ?_
      subst he
      exact ⟨none, fun hne => absurd rfl hne, (Scene.Writes.refl hs.tidy).gains hs.tidy⟩
  obtain ⟨s, s', hrecords, hrecords', -, hx, hreads⟩ := h.exists_scene_of_error hl hends herror
  refine ⟨hreads, ?_⟩
  rw [hrecords, hrecords']
  exact hx hnever

/-! ## A write whose record is refused -/

/-- The record of the file `a` on a floppy disk lies on sector eight, and no bitmap does. -/
theorem FaultPlan.refusing_ofBitmap (history : History) (t : Transfer)
    (ht : t.OfBitmap .floppy .block) : refusing [8] history t = none := by
  rw [Option.eq_none_iff_forall_ne_some]
  intro cause hplan
  obtain ⟨⟨k, hk, rfl⟩, -⟩ := refusing_eq_some_iff.mp hplan
  have hblock : k / 2 = Resource.block.bitmapBlock .floppy := ht.div_eq
  rw [List.mem_singleton] at hk
  subst hk
  exact absurd hblock (by decide)

/-- The file gets a block, and its record is not written. -/
theorem Scene.OneFile.write_refused {s : Scene .floppy} {slot : Fin slotCount}
    (h : s.OneFile slot) :
    ∃ e, ∃ s' : Scene .floppy, ∃ history',
      writeAt 2 0 [1] (Exposed.under (.refusing [8]) s ⟨0, 0⟩)
        = .error e (Exposed.under (.refusing [8]) s' history') ∧
      s'.records.used .block (Layout.floppy.firstDataBlock + 1) = true ∧
      ∀ k, (s'.records.inode 2).block? k = none := by
  have hrefused (hadmits : (FaultPlan.refusing [8]).Admits
      (.write (2 * Layout.floppy.inodeBlock 2))) : False :=
    absurd (by decide) hadmits.not_refused
  have hdata {b : Nat} {e : Error} (hb : Layout.floppy.firstDataBlock ≤ b)
      (hstrikes : (FaultPlan.refusing [8]).Strikes (Transfer.WritesTo b) e) : False := by
    obtain ⟨k, hk, hwrite⟩ := hstrikes.exists_refused
    have hblock : k / 2 = b := Transfer.Touches.div_eq (.inr hwrite)
    rw [List.mem_singleton] at hk
    subst hk
    subst hblock
    exact absurd hb (by decide)
  have hends : Ends (.refusing [8]) (writeAt 2 0 [1]) s _ _ :=
    ends_writeAt h.mounted h.good.tidy h.file (Cells.shows_ofContent _) 0 [1]
  obtain ⟨e, s', history', herror, t, n, hadvances, hbroken⟩ := (hends.mono (fun r _ hr => by
    obtain ⟨-, -, ⟨-, -, hnothing⟩ | ⟨-, -, hadmits⟩⟩ := hr
    · exact absurd hnothing (by decide)
    · exact hrefused hadmits) fun _ _ hx => hx).exists_error ⟨0, 0⟩
  have hn : n = 0 := by
    by_contra hn
    rcases hadvances.passed hn with hpoints | hadmits
    · exact hpoints (h.blank _)
    · exact hrefused hadmits
  obtain rfl := hadvances.start hn
  refine ⟨e, s', history', herror, ?_⟩
  rcases hbroken with hbroken | ⟨hne, -⟩
  · cases hbroken with
    | looking _ cause =>
      exfalso
      rcases cause with hstrikes | hfull
      · obtain ⟨k, -, hread⟩ := hstrikes.exists_refused
        exact Transfer.not_isRead_write k hread
      · rw [h.room] at hfull
        cases hfull
    | taking torn =>
      exfalso
      rcases torn.strikes with hstrikes | ⟨b, hlow, hstrikes⟩
      · obtain ⟨t, history, cause, ht, hplan, -⟩ := hstrikes
        rw [FaultPlan.refusing_ofBitmap history t ht] at hplan
        cases hplan
      · rw [h.room] at hlow
        obtain rfl := Option.some.inj hlow
        exact hdata (Nat.le_succ _) hstrikes
    | @pointing slot b hole slot_lt lowest torn =>
      obtain ⟨-, hlt, -, -⟩ := Records.lowestFree_eq_some_iff.mp lowest
      rw [h.room] at lowest
      obtain rfl := Option.some.inj lowest
      obtain ⟨cut, -, hcut, hrecords⟩ := torn.records
      rcases hcut with rfl | hadmits
      · rw [Inode.mixed_zero, records_putBlock _ (Nat.le_succ _) hlt,
          records_mark (r := .block) _ hlt] at hrecords
        rw [hrecords]
        refine ⟨?_, fun k => ?_⟩
        · change (t.records.takeBlock (Layout.floppy.firstDataBlock + 1) .zero).used .block
            (Layout.floppy.firstDataBlock + 1) = true
          rw [Records.used_takeBlock, if_pos ⟨rfl, rfl⟩]
        · rw [Records.inode_putInode, if_pos rfl]
          exact h.blank k
      · exact (hrefused hadmits).elim
    | @filling slot b byte bytes u supplied _ _ torn =>
      have hrange := supplied.writes.tidy.blocks.range 2 slot b supplied.owns
      exact (hdata hrange.1 torn.strikes).elim
  · exact absurd hn hne

/-- The block of a write whose record is refused is lost. -/
theorem Reached.failed_write_loses_block_floppy :
    let v := (Call.edit (.makeFile rootInode "a")).after Service.floppy
    ∃ logs e v' b, Reached .floppy v logs ∧
      (∀ history t, t.OfBitmap .floppy .block → FaultPlan.refusing [8] history t = none) ∧
      writeAt 2 0 [1] (v.volume.withFaults (.refusing [8])) = .error e v' ∧
      (v.volume.records .floppy).used .block b = false ∧
      (v'.records .floppy).used .block b = true ∧
      ∀ k, ((v'.records .floppy).inode 2).block? k ≠ some b := by
  obtain ⟨logs, slot, history, s, hreached, hvolume, hone⟩ := reached_oneFile
  obtain ⟨e, s', history', herror, hused, hpoints⟩ := hone.write_refused
  rw [← s.withFaults_eq history, ← hvolume] at herror
  refine ⟨logs, e, _, _, hreached, FaultPlan.refusing_ofBitmap, herror, ?_, hused, fun k hk => ?_⟩
  · rw [hvolume]
    exact (Records.lowestFree_eq_some_iff.mp hone.room).2.2.1
  · have hk : (s'.records.inode 2).block? k = some _ := hk
    rw [hpoints] at hk
    cases hk

/-- The same write loses one block. -/
theorem Reached.failed_write_loses_one_floppy :
    let v := (Call.edit (.makeFile rootInode "a")).after Service.floppy
    ∃ logs e v', Reached .floppy v logs ∧ Layout.ofGeometry .floppy = .ok .floppy ∧
      (∀ history t, t.OfBitmap .floppy .block → FaultPlan.refusing [8] history t = none) ∧
      writeAt 2 0 [1] (v.volume.withFaults (.refusing [8])) = .error e v' ∧
      Layout.floppy.Reads (v'.device.withFaults .never) (v'.records .floppy) ∧
      ∃ lost : Option Nat,
        (lost ≠ none → (FaultPlan.refusing [8]).Strikes (Transfer.OfTable .floppy) e) ∧
        ∀ b, (v.volume.records .floppy).used .block b = false →
          (v'.records .floppy).used .block b = true →
          lost = some b ∨ ∃ k, ((v'.records .floppy).inode 2).block? k = some b := by
  obtain ⟨logs, slot, history, s, hreached, hvolume, hone⟩ := reached_oneFile
  obtain ⟨e, s', history', herror, -, -⟩ := hone.write_refused
  rw [← s.withFaults_eq history, ← hvolume] at herror
  exact ⟨logs, e, _, hreached, Layout.ofGeometry_floppy, FaultPlan.refusing_ofBitmap, herror,
    hreached.failed_write_loses_one Layout.ofGeometry_floppy (.refusing [8])
      FaultPlan.refusing_ofBitmap 2 0 [1] herror⟩

end BlockFS
