import BlockFS.Proofs.Faults.Views
import BlockFS.Proofs.Scene.Files

/-!
# Writing into files where transfers may fail

A write that fails was broken off: some of the bytes came into the file as if nothing would fail, and
then one step was not completed.  What the step may have left is told by the kind of the step.
-/

namespace BlockFS

open Volume

theorem FaultPlan.Strikes.ne_noSpace {plan : FaultPlan} {kind : Transfer → Prop} {e : Error}
    (h : plan.Strikes kind e) : e ≠ .noSpace := by
  obtain ⟨_, _, cause, -, -, rfl⟩ := h
  exact Error.noConfusion

variable {l : Layout} {plan : FaultPlan} {s s' : Scene l} {i slot : Nat} {cells : Cells}

/-- The steps of one span at which a write into the bytes of a file from `first` on, before `stop`, may
break off, and what is left of the volume then: looking for a block, taking it, pointing to it, and
writing the data into it. -/
inductive Scene.BrokenOff (plan : FaultPlan) (i first stop : Nat) (s : Scene l) (e : Error)
    (s' : Scene l) : Prop where
  | looking (same : s' = s) (cause : plan.Strikes Transfer.IsRead e ∨
      s.records.lowestFree .block l.blockCount = none)
  | taking (torn : s.HalfTaken plan e s')
  | pointing {slot b : Nat} (hole : (s.records.inode i).block? slot = none)
      (slot_lt : slot < pointerCount) (lowest : s.records.lowestFree .block l.blockCount = some b)
      (torn : ((s.mark .block b true).putBlock b .zero).TornInode plan i
        ((s.records.inode i).setPointer slot b) e s')
  | filling {slot b byte : Nat} {bytes : List UInt8} {t : Scene l}
      (supplied : s.Supplies i slot b t) (behind : first ≤ slot * blockSize + byte)
      (before : slot * blockSize + byte + bytes.length ≤ stop)
      (torn : t.Torn plan b (((s.records.content i slot).getD .zero).write byte bytes) e s')

theorem Scene.BrokenOff.mono {first first' stop : Nat} {e : Error} (hle : first' ≤ first)
    (h : s.BrokenOff plan i first stop e s') : s.BrokenOff plan i first' stop e s' := by
  cases h with
  | looking same cause => exact .looking same cause
  | taking torn => exact .taking torn
  | pointing hole slot_lt lowest torn => exact .pointing hole slot_lt lowest torn
  | filling supplied behind before torn =>
    exact .filling supplied (Nat.le_trans hle behind) before torn

/-- All bytes came into the file, and its size, so that it reaches some byte, and its time were
written. -/
def Scene.Closed (i reach : Nat) (s s' : Scene l) : Prop :=
  ∃ mtime, s' = s.putInode i ((s.records.inode i).reaching reach mtime)

/-- What is left where all bytes came into the file and writing its size and its time failed. -/
def Scene.Unclosed (plan : FaultPlan) (i reach : Nat) (s : Scene l) (e : Error) (s' : Scene l) :
    Prop :=
  ∃ mtime, s.TornInode plan i ((s.records.inode i).reaching reach mtime) e s'

/-- The first bytes of some data came into a file, under a plan of failures that let this pass. -/
structure Scene.Advances (plan : FaultPlan) (i offset : Nat) (data : List UInt8) (cells : Cells)
    (s s' : Scene l) (n : Nat) : Prop extends Scene.Puts i offset data cells s s' n where
  size : (s'.records.inode i).size = (s.records.inode i).size
  start : n = 0 → s' = s
  passed : n ≠ 0 → (s.records.inode i).block? (offset / blockSize) ≠ none ∨
    plan.Admits (.write (2 * l.inodeBlock i))

theorem Scene.Advances.none (h : s.records.Tidy l)
    (hshow : Cells.Shows (s.records.content i) cells) (offset : Nat) (data : List UInt8) :
    Scene.Advances plan i offset data cells s s 0 where
  toPuts := .none h hshow offset data
  size := rfl
  start _ := rfl
  passed := fun hne => absurd rfl hne

namespace File

theorem ends_allocateMore (hm : s.mounted = true) (hres : s.records.Reserves l) (progress : Bool) :
    Ends plan (allocateMore progress) s
      (fun r s' => (∃ b, r = some b ∧ s.records.lowestFree .block l.blockCount = some b ∧
          s' = (s.mark .block b true).putBlock b .zero) ∨
        (r = none ∧ s' = s ∧ progress = true))
      (fun e s' => (s' = s ∧ s.records.lowestFree .block l.blockCount = none) ∨
        s.HalfTaken plan e s') := by
  refine Ends.tryCatch (Ends.map ((ends_allocateBlock hm hres).mono (fun b s' h => ?_)
    fun _ _ h => h)) fun e s' h => ?_
  · exact .inl ⟨b, rfl, h⟩
  · rcases h with ⟨rfl, hfull, rfl⟩ | htaken
    · cases progress with
      | true => exact .pure (.inr ⟨rfl, rfl, rfl⟩)
      | false => exact .throw (.inl ⟨rfl, hfull⟩)
    · have hne : e ≠ .noSpace := by
        rcases htaken.strikes with hstrikes | ⟨b, -, hstrikes⟩
        · exact hstrikes.ne_noSpace
        · exact hstrikes.ne_noSpace
      split
      · exact absurd rfl hne
      · exact .throw (.inr htaken)

section

variable (hm : s.mounted = true) (h : s.records.Tidy l) (hi : s.records.kind i = .file)

include hm h hi

theorem ends_blockFor (hslot : slot < pointerCount) (progress : Bool) (first stop : Nat) :
    Ends plan (blockFor slot progress) (s.file i, s)
      (fun r t => (∃ b, r = some (b, (s.records.content i slot).getD .zero) ∧
          t.1 = t.2.file i ∧ s.Supplies i slot b t.2 ∧
          ((s.records.inode i).block? slot ≠ none ∨
            plan.Admits (.write (2 * l.inodeBlock i)))) ∨
        (r = none ∧ t = (s.file i, s) ∧ progress = true))
      (fun e t => s.BrokenOff plan i first stop e t.2) := by
  have hlive := Records.ne_free_of_file hi
  refine ViewM.current_bind ?_
  cases hblock : (s.records.inode i).block? slot with
  | some b =>
    have hown : s.records.Owns i slot b := ⟨hlive, hblock⟩
    obtain ⟨hge, hlt⟩ := h.blocks.range i slot b hown
    have hfile : (s.file i).record.block? slot = some b := hblock
    simp only [hfile]
    refine ViewM.onVolume_bind (views_readBlock hm hge hlt)
      (fun e s' he => .looking he.1 (.inl he.2)) fun c s' hc => ?_
    obtain ⟨rfl, rfl⟩ := hc
    refine .pure (.inl ⟨b, ?_, rfl, .refl h hown, .inl (Option.some_ne_none b)⟩)
    rw [hown.content_eq, Option.getD_some]
  | none =>
    have hfile : (s.file i).record.block? slot = none := hblock
    have hilt : i < l.inodeCount := h.lt_of_live hlive
    simp only [hfile]
    refine ViewM.onVolume_bind (ends_allocateMore hm h.reserves progress) (fun e s' he => ?_)
      fun r s' hr => ?_
    · rcases he with ⟨hsame, hfull⟩ | htaken
      · exact .looking hsame (.inr hfull)
      · exact .taking htaken
    rcases hr with ⟨b, rfl, hfree, rfl⟩ | ⟨rfl, rfl, hprogress⟩
    · obtain ⟨-, hlt, hb, -⟩ := Records.lowestFree_eq_some_iff.mp hfree
      have hm' : ((s.mark .block b true).putBlock b .zero).mounted = true := hm
      have hrecord := (writes_grow h hi hblock hslot hb hlt).2.1
      refine ViewM.change_bind (ViewM.current_bind ?_)
      refine ViewM.onVolume_bind (ends_writeInode hm' hilt _)
        (fun e s' he => .pointing hblock hslot hfree he) fun _ s' hdone => ?_
      obtain ⟨rfl, hadmits⟩ := hdone
      refine .pure (.inl ⟨b, ?_, congrArg (File.mk i) hrecord.symm,
        .grow h hi hblock hslot hb hlt, .inr hadmits⟩)
      rw [Records.content_eq_none_iff.mpr hblock]
      rfl
    · exact .pure (.inr ⟨rfl, rfl, hprogress⟩)

end

/-- Bytes come into the file span by span, up to the step that fails. -/
theorem ends_writeSpans (blocks : Nat) :
    ∀ (p : Position) (data : List UInt8) (done : Nat) (s : Scene l) (cells : Cells),
      s.mounted = true → s.records.Tidy l → s.records.kind i = .file →
      Cells.Shows (s.records.content i) cells → p.block + blocks ≤ pointerCount →
      Ends plan (writeSpans (Span.coverWithin blocks p data.length) data done) (s.file i, s)
        (fun r t => ∃ n, r = done + n ∧ t.1 = t.2.file i ∧
          Scene.Advances plan i p.toNat data cells s t.2 n ∧
          (r = 0 → data.length = 0 ∨ blocks = 0))
        (fun e t => ∃ s1 n, Scene.Advances plan i p.toNat data cells s s1 n ∧
          s1.BrokenOff plan i p.toNat (p.toNat + data.length) e t.2) := by
  induction blocks with
  | zero =>
    intro p data done s cells _ h _ hshow _
    exact .pure ⟨0, rfl, rfl, .none h hshow _ _, fun _ => .inr rfl⟩
  | succ blocks ih =>
    intro p data done s cells hm h hi hshow hslots
    have hnone : Scene.Advances plan i p.toNat data cells s s 0 := .none h hshow p.toNat data
    by_cases hlength : data.length = 0
    · rw [hlength, Span.coverWithin_zero]
      exact .pure ⟨0, rfl, rfl, hnone, fun _ => .inl rfl⟩
    · have hbyte := p.byte_lt
      have hslot : p.block < pointerCount := by omega
      rw [Span.coverWithin_succ _ _ hlength]
      generalize hhere : min data.length (blockSize - p.byte) = here
      have hnext : (p.advance here).block ≤ p.block + 1 := Position.block_advance_le (by omega)
      refine Ends.bind ((ends_blockFor hm h hi hslot (0 < done) p.toNat
        (p.toNat + data.length)).weaken fun e t he => ⟨s, 0, hnone, he⟩) fun r t hr => ?_
      rcases hr with ⟨b, rfl, hview, hw, hpassed⟩ | ⟨rfl, rfl, hprogress⟩
      · obtain ⟨view, s1⟩ := t
        have hview : view = s1.file i := hview
        subst hview
        have hm1 : s1.mounted = true := hw.writes.mounted.trans hm
        have hpos : 0 < here := by omega
        have hlen : here ≤ data.length := by omega
        have hroom : p.byte + here ≤ blockSize := by omega
        have hk : p.block * blockSize + p.byte = p.toNat := rfl
        have hshow2 := hw.shows hi hk hpos hlen hroom hshow
        obtain ⟨hge, hlt⟩ := hw.writes.tidy.blocks.range i p.block b hw.owns
        generalize hz : ((s.records.content i p.block).getD .zero).write p.byte (data.take here)
          = z at hshow2
        obtain ⟨hw2, hinode2, -⟩ := writes_putBlock hw.writes.tidy (hw.kind hi) hw.owns z
        have hfile2 : s1.file i = (s1.putBlock b z).file i := by
          rw [Scene.file, Scene.file, hinode2]
        have hadvances {s2 : Scene l} {n : Nat} (hrest : Scene.Advances plan i
            (p.advance here).toNat (data.drop here) (cells.lay p.toNat (data.take here))
            (s1.putBlock b z) s2 n) :
            Scene.Advances plan i p.toNat data cells s s2 (here + n) := by
          have hputs := hrest.toPuts
          rw [p.toNat_advance, ← hz] at hputs
          refine ⟨hw.puts_cons hi hk hpos hlen hroom hslot hputs, ?_, fun hzero => by omega, ?_⟩
          · rw [hrest.size, hinode2, hw.size]
          · rw [p.toNat_div]
            exact fun _ => hpassed
        have hwithin : p.block * blockSize + p.byte + (data.take here).length
            ≤ p.toNat + data.length := Nat.add_le_add_left (List.length_take_le' _ _) _
        have hrest_le : p.toNat ≤ (p.advance here).toNat := by
          rw [p.toNat_advance]
          exact Nat.le_add_right _ _
        have hrest_stop : (p.advance here).toNat + (data.drop here).length
            = p.toNat + data.length := by
          rw [p.toNat_advance, List.length_drop]
          omega
        simp only [hz]
        refine ViewM.onVolume_bind (ends_writeBlock hm1 hge hlt z) (fun e s' he =>
          ⟨s, 0, hnone, .filling hw (Nat.le_refl _) hwithin (hz ▸ he)⟩) fun _ s2 hs2 => ?_
        obtain ⟨rfl, -⟩ := hs2
        have hrest := ih (p.advance here) (data.drop here) (done + here) (s1.putBlock b z) _ hm1
          hw2.tidy ((hw2.kind_eq i).trans (hw.kind hi)) hshow2 (by omega)
        rw [← hfile2] at hrest
        rw [← List.length_drop]
        refine hrest.mono (fun r t hr => ?_) fun e t he => ?_
        · obtain ⟨n, rfl, hview, hn, -⟩ := hr
          exact ⟨here + n, Nat.add_assoc _ _ _, hview, hadvances hn, fun hzero => by omega⟩
        · obtain ⟨s2, n, hn, hbroken⟩ := he
          rw [hrest_stop] at hbroken
          exact ⟨s2, here + n, hadvances hn, hbroken.mono hrest_le⟩
      · rw [decide_eq_true_iff] at hprogress
        exact .pure ⟨0, rfl, rfl, hnone, fun hzero => by omega⟩

/-- A write into a file, up to the step that fails. -/
theorem ends_write (hm : s.mounted = true) (h : s.records.Tidy l) (hi : s.records.kind i = .file)
    (hshow : Cells.Shows (s.records.content i) cells) (offset : Nat) (data : List UInt8) :
    Ends plan (write offset data) (s.file i, s)
      (fun r t => ∃ s1, Scene.Advances plan i offset data cells s s1 r ∧
        (r = 0 ∧ t.2 = s1 ∧ (data.length = 0 ∨ pointerCount ≤ offset / blockSize) ∨
          r ≠ 0 ∧ s1.Closed i (offset + r) t.2 ∧ plan.Admits (.write (2 * l.inodeBlock i))))
      (fun e t => ∃ s1 n, Scene.Advances plan i offset data cells s s1 n ∧
        (s1.BrokenOff plan i offset (offset + data.length) e t.2 ∨
          n ≠ 0 ∧ s1.Unclosed plan i (offset + n) e t.2)) := by
  have hstart := Position.block_ofNat offset
  have hcover : Span.cover pointerCount (.ofNat offset) data.length
      = Span.coverWithin (pointerCount - (Position.ofNat offset).block) (.ofNat offset)
          data.length := rfl
  by_cases hslots : (Position.ofNat offset).block ≤ pointerCount
  · have hspans : Ends plan _ _ _ _ := ends_writeSpans (i := i) _ (.ofNat offset) data 0 s cells
      hm h hi hshow (Nat.le_of_eq (Nat.add_sub_of_le hslots))
    rw [Position.toNat_ofNat] at hspans
    rw [write, hcover]
    refine Ends.bind (hspans.weaken fun e t he => ?_) fun r t hr => ?_
    · obtain ⟨s1, n, hn, hbroken⟩ := he
      exact ⟨s1, n, hn, .inl hbroken⟩
    obtain ⟨n, rfl, hview, hn, hzero⟩ := hr
    obtain ⟨view, s1⟩ := t
    have hview : view = s1.file i := hview
    subst hview
    rw [Nat.zero_add] at hzero ⊢
    by_cases hpos : 0 < n
    · have hm1 : s1.mounted = true := hn.writes.mounted.trans hm
      have hi1 : s1.records.kind i = .file := (hn.writes.kind_eq i).trans hi
      have hilt : i < l.inodeCount := hn.writes.tidy.lt_of_live (Records.ne_free_of_file hi1)
      simp only [if_pos hpos]
      refine Ends.get_bind fun history => ViewM.change_bind (ViewM.current_bind ?_)
      have hne := Nat.ne_of_gt hpos
      refine ViewM.onVolume_bind (ends_writeInode hm1 hilt _) (fun e s' he =>
        ⟨s1, n, hn, .inr ⟨hne, _, he⟩⟩) fun _ s' hdone =>
          .pure ⟨s1, hn, .inr ⟨hne, ⟨_, hdone.1⟩, hdone.2⟩⟩
    · simp only [if_neg hpos]
      obtain rfl := Nat.eq_zero_of_not_pos hpos
      exact .pure ⟨s1, hn, .inl ⟨rfl, rfl, (hzero rfl).imp_right fun hblocks => by omega⟩⟩
  · have hnone : pointerCount - (Position.ofNat offset).block = 0 :=
      Nat.sub_eq_zero_of_le (Nat.le_of_not_le hslots)
    rw [write, hcover, hnone]
    refine Ends.bind (Q := fun r t => r = 0 ∧ t = (s.file i, s)) (.pure ⟨rfl, rfl⟩) fun r t hr => ?_
    obtain ⟨rfl, rfl⟩ := hr
    exact .pure ⟨s, .none h hshow offset data, .inl ⟨rfl, rfl, .inr (by omega)⟩⟩

end File

namespace Volume

theorem ends_writeAt (hm : s.mounted = true) (h : s.records.Tidy l) (hi : s.records.kind i = .file)
    (hshow : Cells.Shows (s.records.content i) cells) (offset : Nat) (data : List UInt8) :
    Ends plan (writeAt i offset data) s
      (fun r s' => ∃ s1, Scene.Advances plan i offset data cells s s1 r ∧
        (r = 0 ∧ s' = s1 ∧ (data.length = 0 ∨ pointerCount ≤ offset / blockSize) ∨
          r ≠ 0 ∧ s1.Closed i (offset + r) s' ∧ plan.Admits (.write (2 * l.inodeBlock i))))
      (fun e s' => ∃ s1 n, Scene.Advances plan i offset data cells s s1 n ∧
        (s1.BrokenOff plan i offset (offset + data.length) e s' ∨
          n ≠ 0 ∧ s1.Unclosed plan i (offset + n) e s')) := by
  refine Views.bind_ends (File.views_ofInode hm i) (fun e he => ?_) fun f hf => ?_
  · rcases he with hother | hstrikes
    · exact absurd hi hother
    · exact ⟨s, 0, .none h hshow offset data, .inl (.looking rfl (.inl hstrikes))⟩
  · obtain ⟨-, rfl⟩ := hf
    exact ViewM.ends_through (File.ends_write hm h hi hshow offset data)

/-- What is no file, or not mounted, is not written into. -/
theorem ends_writeAt_other (h : ¬ (s.mounted = true ∧ s.records.kind i = .file)) (offset : Nat)
    (data : List UInt8) :
    Ends plan (writeAt i offset data) s (fun _ _ => False) (fun _ s' => s' = s) := by
  by_cases hm : s.mounted = true
  · exact Views.bind_ends (File.views_ofInode hm i) (fun _ _ => rfl) fun f hf =>
      absurd ⟨hm, hf.1⟩ h
  · have hm' : s.mounted = false := Bool.eq_false_iff.mpr hm
    refine Views.bind_ends (Q := fun _ => False) (E := fun _ => True) ?_ (fun _ _ => rfl)
      fun _ => False.elim
    exact Views.bind (Q := fun _ => False) ((views_readInode_unmounted hm' i).weaken
      fun _ _ => trivial) fun _ => False.elim

end Volume

end BlockFS
