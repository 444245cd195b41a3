import BlockFS.Proofs.Faults
import BlockFS.Proofs.StoreLaws
import BlockFS.Proofs.TornWrites

/-!
# Stores where transfers may fail

A read that fails changes nothing.  A write of a block that fails leaves the block as it was, or with
its first half written.  For a bitmap this means that the change has happened or has not, and for the
record of an inode that an even number of its bytes are new.
-/

namespace BlockFS

instance : Exposed Disk Device where
  under plan disk history := ⟨disk, plan, history⟩

instance {l : Layout} : Exposed (Store l) Device where
  under plan st history := ⟨st.disk, plan, history⟩

/-! ## Sectors and blocks -/

section

variable {plan : FaultPlan} {d : Disk} {i k : Nat}

theorem views_readSector (h : k < d.sectors.size) :
    Views plan (Device.readSector k) d (· = d.sector k) (plan.Strikes (· = .read k)) := by
  intro history
  simp only [Exposed.under, Device.readSector, Disk.sector?_of_lt h]
  cases hplan : plan history (.read k) with
  | none => exact .inl ⟨_, d, _, rfl, rfl, rfl⟩
  | some cause => exact .inr ⟨_, d, _, rfl, rfl, _, history, cause, rfl, hplan, rfl⟩

theorem ends_writeSector (s : Sector) :
    Ends plan (Device.writeSector k s) d
      (fun _ d' => d' = d.writeSector k s ∧ plan.Admits (.write k))
      (fun e d' => d' = d ∧ plan.Strikes (· = .write k) e) := by
  intro history
  simp only [Exposed.under, Device.writeSector]
  cases hplan : plan history (.write k) with
  | none => exact .inl ⟨(), d.writeSector k s, _, rfl, rfl, history, hplan⟩
  | some cause => exact .inr ⟨_, d, _, rfl, rfl, _, history, cause, rfl, hplan, rfl⟩

theorem views_device_readBlock (h : 2 * i + 1 < d.sectors.size) :
    Views plan (Device.readBlock i) d (· = d.block i) (plan.Strikes (Transfer.ReadsOf i)) := by
  have hlower : 2 * i < d.sectors.size := by omega
  refine ((views_readSector hlower).weaken fun _ he => he.mono fun _ ht => .inl ht).bind
    fun lower hl => ?_
  refine ((views_readSector h).weaken fun _ he => he.mono fun _ ht => .inr ht).bind
    fun upper hu => .pure ?_
  rw [hl, hu]
  rfl

/-- Of a block that was not written as a whole, nothing was written or its first half. -/
theorem ends_device_writeHalves (b : Block) :
    Ends plan (Device.writeBlock i b) d
      (fun _ d' => d' = d.putBlock i b ∧ plan.Admits (.write (2 * i)) ∧
        plan.Admits (.write (2 * i + 1)))
      (fun e d' => (d' = d ∧ plan.Strikes (· = .write (2 * i)) e) ∨
        (d' = d.writeSector (2 * i) b.lower ∧ plan.Admits (.write (2 * i)) ∧
          plan.Strikes (· = .write (2 * i + 1)) e)) := by
  refine Ends.bind ((ends_writeSector b.lower).weaken fun _ _ he => .inl he) fun _ d' hlower => ?_
  obtain ⟨rfl, hadmits⟩ := hlower
  refine (ends_writeSector b.upper).mono (fun _ d' hupper => ?_) fun e d' hupper => ?_
  · exact ⟨hupper.1, hadmits, hupper.2⟩
  · exact .inr ⟨hupper.1, hadmits, hupper.2⟩

/-- A block that was not written as a whole is as it was, or its first half was written. -/
theorem ends_device_writeBlock (h : 2 * i + 1 < d.sectors.size) (b : Block) :
    Ends plan (Device.writeBlock i b) d
      (fun _ d' => d' = d.putBlock i b ∧ plan.Admits (.write (2 * i)) ∧
        plan.Admits (.write (2 * i + 1)))
      (fun e d' => (d' = d ∧ plan.Strikes (· = .write (2 * i)) e) ∨
        (d' = d.putBlock i (.splice sectorSize b (d.block i)) ∧ plan.Admits (.write (2 * i)) ∧
          plan.Strikes (· = .write (2 * i + 1)) e)) := by
  rw [← Disk.writeSector_lower h b]
  exact ends_device_writeHalves b

end

namespace Store

variable {l : Layout} {plan : FaultPlan} {st : Store l} {i : Nat} {r : Resource}

theorem views_readBlock (h : i < l.blockCount) :
    Views plan (l.readBlock i) st (· = st.block i) (plan.Strikes (Transfer.ReadsOf i)) := by
  rw [Layout.readBlock, if_pos h]
  intro history
  have hread : Views plan _ _ _ _ := views_device_readBlock (st.lt_size h)
  rcases hread history with
    ⟨a, d', h', hx, rfl, ha⟩ | ⟨e, d', h', hx, rfl, he⟩
  · exact .inl ⟨a, st, h', hx, rfl, ha⟩
  · exact .inr ⟨e, st, h', hx, rfl, he⟩

/-- What may be left of a store by a write of a block that failed. -/
def Torn (plan : FaultPlan) (st : Store l) (i : Nat) (b : Block) (e : Error) (st' : Store l) :
    Prop :=
  (st' = st ∧ plan.Strikes (· = .write (2 * i)) e) ∨
    (st' = st.putBlock i (.splice sectorSize b (st.block i)) ∧ plan.Admits (.write (2 * i)) ∧
      plan.Strikes (· = .write (2 * i + 1)) e)

theorem Torn.strikes {b : Block} {e : Error} {st' : Store l} (h : Torn plan st i b e st') :
    plan.Strikes (Transfer.WritesTo i) e := by
  rcases h with ⟨-, hstrikes⟩ | ⟨-, -, hstrikes⟩
  · exact hstrikes.mono fun _ ht => Or.inl ht
  · exact hstrikes.mono fun _ ht => Or.inr ht

theorem ends_writeBlock (h : i < l.blockCount) (hi : superblockBlock < i) (b : Block) :
    Ends plan (l.writeBlock i b) st
      (fun _ st' => st' = st.putBlock i b ∧ plan.Admits (.write (2 * i)) ∧
        plan.Admits (.write (2 * i + 1)))
      (Torn plan st i b) := by
  have hput (b : Block) : st.disk.putBlock i b = (st.putBlock i b).disk :=
    (st.disk_putBlock b hi).symm
  rw [Layout.writeBlock, if_pos h]
  intro history
  have hwrite : Ends plan _ _ _ _ := ends_device_writeBlock (st.lt_size h) b
  rcases hwrite history with
    ⟨a, d', h', hx, rfl, hadmits⟩ | ⟨e, d', h', hx, ⟨rfl, he⟩ | ⟨rfl, he⟩⟩
  · rw [hput] at hx
    exact .inl ⟨a, _, h', hx, rfl, hadmits⟩
  · exact .inr ⟨e, st, h', hx, .inl ⟨rfl, he⟩⟩
  · rw [hput] at hx
    exact .inr ⟨e, _, h', hx, .inr ⟨rfl, he⟩⟩

/-! ## Bitmaps -/

theorem views_readBitmap :
    Views plan (l.readBitmap r) st (· = l.bitmap st.block r)
      (plan.Strikes (Transfer.ReadsOf (r.bitmapBlock l))) := by
  refine (views_readBlock (l.bitmapBlock_lt_blockCount r)).bind fun b hb => .pure ?_
  rw [hb]
  rfl

/-- A bit that could not be written has changed or has not. -/
theorem ends_writeBitmap_mark (used : Bool) :
    Ends plan (l.writeBitmap r ((l.bitmap st.block r).mark i used)) st
      (fun _ st' => st' = st.mark r i used)
      (fun e st' => (st' = st ∨ st' = st.mark r i used) ∧
        plan.Strikes (Transfer.WritesTo (r.bitmapBlock l)) e) := by
  have hlt := l.bitmapBlock_lt_blockCount r
  have hsuper := l.superblock_lt_bitmapBlock r
  refine (ends_writeBlock hlt hsuper _).mono (fun _ st' h => h.1) fun e st' h => ⟨?_, h.strikes⟩
  rcases h with ⟨hsame, -⟩ | ⟨htorn, -⟩
  · exact .inl hsame
  · rcases (l.bitmap st.block r).splice_mark i used sectorSize with hnew | hold
    · exact .inr (htorn.trans (congrArg _ hnew))
    · exact .inl (htorn.trans ((congrArg _ hold).trans (st.putBlock_block hlt hsuper)))

end Store

/-! ## Inode records -/

namespace Transfer

/-- The transfer reads from the inode table. -/
def ReadsTable (l : Layout) (t : Transfer) : Prop :=
  ∃ b, l.tableStart ≤ b ∧ b < l.firstDataBlock ∧ t.ReadsOf b

/-- The transfer reads from the inode table or writes to it. -/
def OfTable (l : Layout) (t : Transfer) : Prop :=
  ∃ b, l.tableStart ≤ b ∧ b < l.firstDataBlock ∧ t.Touches b

end Transfer

namespace Layout

variable (l : Layout) {i : Nat}

/-- The block of the inode table in which the record of an inode begins. -/
def inodeBlock (i : Nat) : Nat := l.tableStart + i * inodeRecordSize / blockSize

theorem tableStart_le_inodeBlock (i : Nat) : l.tableStart ≤ l.inodeBlock i := Nat.le_add_right _ _

/-- Where the first block of a record was written up to a cut, the bytes of the record before the cut
are new. -/
theorem putInode_mixed (bs : Blocks) (x : Inode) {cut : Nat} (hcut : cut ≤ blockSize) :
    Function.update bs (l.inodeBlock i) (.splice cut
        ((bs (l.inodeBlock i)).write (i * inodeRecordSize % blockSize) x.encode.toList)
        (bs (l.inodeBlock i)))
      = l.putInode bs i
          (.mixed (cut - i * inodeRecordSize % blockSize) x (l.inode bs i)) := by
  have hstart := Nat.mod_lt (i * inodeRecordSize) blockSize_pos
  have hlen : x.encode.toList.length = inodeRecordSize := Vector.length_toList
  -- what a byte of the record lay over before
  have hold (k : Nat) (hk : k < inodeRecordSize) :
      (l.inode bs i).encode[k] = l.tableByte bs (i * inodeRecordSize + k) := by
    simp only [inode, Inode.encode_decode, inodeBytes, Vector.getElem_ofFn]
  have hmixed (k : Nat) (old : UInt8) (hbyte : k < inodeRecordSize →
      l.tableByte bs (i * inodeRecordSize + k) = old) :
      (Inode.mixed (cut - i * inodeRecordSize % blockSize) x (l.inode bs i)).encode.toList[k]?.getD
        old = if i * inodeRecordSize % blockSize + k < cut then x.encode.toList[k]?.getD old
          else old := by
    by_cases hk : k < inodeRecordSize
    · rw [Inode.encode_mixed, Vector.getElem?_toList, Vector.getElem?_eq_getElem hk,
        Option.getD_some, Bytes.getElem_splice, hold k hk, hbyte hk, Vector.getElem?_toList,
        Vector.getElem?_eq_getElem hk, Option.getD_some]
      by_cases hlt : i * inodeRecordSize % blockSize + k < cut
      · rw [if_pos hlt, if_pos (by omega)]
      · rw [if_neg hlt, if_neg (by omega)]
    · rw [List.getElem?_eq_none (by rw [Vector.length_toList]; omega),
        List.getElem?_eq_none (by omega), Option.getD_none, ite_self]
  funext j
  refine Vector.ext fun t ht => ?_
  rw [putInode, Blocks.getElem_writeOver, ← inodeBlock]
  by_cases hj : j = l.inodeBlock i
  · subst hj
    rw [if_pos rfl, Function.update_self, Bytes.getElem_splice, Bytes.getElem_write]
    by_cases hle : i * inodeRecordSize % blockSize ≤ t
    · have hsum : i * inodeRecordSize % blockSize + (t - i * inodeRecordSize % blockSize) = t := by
        omega
      rw [if_pos hle, if_pos hle, hmixed, hsum]
      intro hk
      have hdiv : (i * inodeRecordSize + (t - i * inodeRecordSize % blockSize)) / blockSize
          = i * inodeRecordSize / blockSize := by
        simp only [blockSize, inodeRecordSize] at *
        omega
      have hmod : (i * inodeRecordSize + (t - i * inodeRecordSize % blockSize)) % blockSize = t := by
        simp only [blockSize, inodeRecordSize] at *
        omega
      simp only [tableByte, inodeBlock, hdiv, hmod]
    · rw [if_neg hle, if_neg hle, ite_self]
  · rw [if_neg hj, Function.update_of_ne hj]
    by_cases hnext : j = l.inodeBlock i + 1
    · rw [if_pos hnext, hmixed, if_neg (by omega)]
      intro hk
      have hdiv : (i * inodeRecordSize + (blockSize - i * inodeRecordSize % blockSize + t))
          / blockSize = i * inodeRecordSize / blockSize + 1 := by
        simp only [blockSize, inodeRecordSize] at *
        omega
      have hmod : (i * inodeRecordSize + (blockSize - i * inodeRecordSize % blockSize + t))
          % blockSize = t := by
        simp only [blockSize, inodeRecordSize] at *
        omega
      simp only [tableByte, hnext, inodeBlock, hdiv, hmod, Nat.add_assoc]
    · rw [if_neg hnext]

end Layout

namespace Store

variable {l : Layout} {plan : FaultPlan} {st : Store l} {i : Nat}

theorem views_readInode (hi : i < l.inodeCount) :
    Views plan (l.readInode i) st (· = l.inode st.block i)
      (plan.Strikes (Transfer.ReadsTable l)) := by
  have hfirst := l.inodeBlock_lt hi
  have hdata := l.firstDataBlock_lt_blockCount
  have hstart := Nat.mod_lt (i * inodeRecordSize) blockSize_pos
  have hread {b : Nat} (hge : l.tableStart ≤ b) (hlt : b < l.firstDataBlock) :
      Views plan (l.readBlock b) st (· = st.block b) (plan.Strikes (Transfer.ReadsTable l)) :=
    (views_readBlock (Nat.lt_trans hlt hdata)).weaken fun _ he =>
      he.mono fun _ ht => ⟨b, hge, hlt, ht⟩
  unfold Layout.readInode
  rw [l.inodePlace_eq hi, ← Layout.inodeBlock]
  refine Ends.ok_bind ?_
  refine (hread (l.tableStart_le_inodeBlock i) hfirst).bind fun first hb => ?_
  subst hb
  simp only [Bytes.length_read]
  split
  · next hshort =>
    have hlen : min inodeRecordSize (blockSize - i * inodeRecordSize % blockSize)
        = blockSize - i * inodeRecordSize % blockSize := by omega
    have hspill : blockSize < i * inodeRecordSize % blockSize + inodeRecordSize := by omega
    refine (hread (Nat.le_succ_of_le (l.tableStart_le_inodeBlock i))
      (l.inodeNext_lt hi hspill)).bind fun next hb => .pure ?_
    subst hb
    rw [hlen, Layout.inodeBlock, l.inodeBytes_eq_read_append hspill]
    rfl
  · next hlong =>
    refine .pure ?_
    rw [Layout.inodeBlock, l.inodeBytes_eq_read (by omega)]
    rfl

/-- The store with as much of another record of an inode as its first block has room for. -/
def putHead (st : Store l) (i : Nat) (x : Inode) : Store l :=
  st.putBlock (l.inodeBlock i)
    ((st.block (l.inodeBlock i)).write (i * inodeRecordSize % blockSize) x.encode.toList)

/-- A record that does not fit into its block goes on in the next one. -/
theorem putBlock_putHead {x : Inode}
    (hrest : ¬ (x.encode.toList.drop (blockSize - i * inodeRecordSize % blockSize)).isEmpty) :
    (st.putHead i x).putBlock (l.inodeBlock i + 1)
        (((st.putHead i x).block (l.inodeBlock i + 1)).write 0
          (x.encode.toList.drop (blockSize - i * inodeRecordSize % blockSize)))
      = st.putInode i x := by
  rw [putInode, writeOver, if_neg hrest, putHead, Layout.inodeBlock]

/-- What may be left of a store by a write of a record that failed.  An even number of the bytes of the
record are new, none of them if the first write was refused. -/
def TornInode (plan : FaultPlan) (st : Store l) (i : Nat) (x : Inode) (e : Error)
    (st' : Store l) : Prop :=
  plan.Strikes (Transfer.OfTable l) e ∧ ∃ cut, cut % 2 = 0 ∧
    (cut = 0 ∨ plan.Admits (.write (2 * l.inodeBlock i))) ∧
    st'.records = st.records.putInode i (.mixed cut x (st.records.inode i))

namespace TornInode

variable {x : Inode} {e : Error} (hstrikes : plan.Strikes (Transfer.OfTable l) e)

include hstrikes

theorem unchanged : TornInode plan st i x e st := by
  refine ⟨hstrikes, 0, rfl, .inl rfl, ?_⟩
  rw [Inode.mixed_zero, Records.putInode, Function.update_eq_self]

theorem complete (hi : i < l.inodeCount) (hadmits : plan.Admits (.write (2 * l.inodeBlock i))) :
    TornInode plan st i x e (st.putInode i x) := by
  refine ⟨hstrikes, inodeRecordSize, rfl, .inr hadmits, ?_⟩
  rw [Inode.mixed_of_le (Nat.le_refl _), st.records_putInode hi]

theorem of_cut (hi : i < l.inodeCount) (hadmits : plan.Admits (.write (2 * l.inodeBlock i)))
    {cut : Nat} (hcut : cut ≤ blockSize) (heven : cut % 2 = 0) :
    TornInode plan st i x e (st.putBlock (l.inodeBlock i) (.splice cut
      ((st.block (l.inodeBlock i)).write (i * inodeRecordSize % blockSize) x.encode.toList)
      (st.block (l.inodeBlock i)))) := by
  have heven' : (cut - i * inodeRecordSize % blockSize) % 2 = 0 := by
    simp only [inodeRecordSize, blockSize]
    omega
  have hplace : superblockBlock < l.inodeBlock i := l.superblock_lt_inodeBlock i
  have hinode : st.records.inode i = l.inode st.block i := if_pos hi
  refine ⟨hstrikes, cut - i * inodeRecordSize % blockSize, heven', .inr hadmits, ?_⟩
  rw [hinode, records, st.block_putBlock _ hplace, l.putInode_mixed _ _ hcut,
    l.records_putInode _ hi]
  rfl

end TornInode

theorem ends_writeInode (hi : i < l.inodeCount) (x : Inode) :
    Ends plan (l.writeInode i x) st
      (fun _ st' => st' = st.putInode i x ∧ plan.Admits (.write (2 * l.inodeBlock i)))
      (TornInode plan st i x) := by
  have hfirst : l.inodeBlock i < l.firstDataBlock := l.inodeBlock_lt hi
  have hdata := l.firstDataBlock_lt_blockCount
  have hplace : superblockBlock < l.inodeBlock i := l.superblock_lt_inodeBlock i
  have hge := l.tableStart_le_inodeBlock i
  have hlen : x.encode.toList.length = inodeRecordSize := Vector.length_toList
  unfold Layout.writeInode
  rw [l.inodePlace_eq hi, ← Layout.inodeBlock]
  refine Ends.ok_bind ?_
  refine (views_readBlock (by omega)).bind_ends (fun e he => ?_) fun first hb => ?_
  · exact .unchanged (he.mono fun _ ht => ⟨_, hge, hfirst, .inl ht⟩)
  subst hb
  refine Ends.bind ((ends_writeBlock (by omega) hplace _).weaken fun e st' htorn => ?_)
    fun _ st' hput => ?_
  · have hstrikes : plan.Strikes (Transfer.OfTable l) e :=
      htorn.strikes.mono fun _ ht => ⟨_, hge, hfirst, .inr ht⟩
    rcases htorn with ⟨rfl, -⟩ | ⟨rfl, hadmits, -⟩
    · exact .unchanged hstrikes
    · exact .of_cut hstrikes hi hadmits (by decide) rfl
  obtain ⟨hput, hadmits, -⟩ := hput
  obtain rfl : st' = st.putHead i x := hput
  dsimp only
  by_cases hrest : (x.encode.toList.drop (blockSize - i * inodeRecordSize % blockSize)).isEmpty
  · rw [if_pos hrest]
    refine .pure ⟨?_, hadmits⟩
    rw [putInode, writeOver, if_pos hrest, putHead, Layout.inodeBlock]
  · rw [if_neg hrest]
    have hspill : blockSize < i * inodeRecordSize % blockSize + inodeRecordSize := by
      simp at hrest
      omega
    have hlast : l.inodeBlock i + 1 < l.firstDataBlock := l.inodeNext_lt hi hspill
    have hhead {e : Error} (hstrikes : plan.Strikes (Transfer.OfTable l) e) :
        TornInode plan st i x e (st.putHead i x) := by
      have htorn : TornInode plan st i x e _ :=
        .of_cut hstrikes hi hadmits (Nat.le_refl blockSize) rfl
      rw [Bytes.splice_eq_left fun j hj hle => absurd hj (Nat.not_lt_of_le hle)] at htorn
      exact htorn
    refine (views_readBlock (by omega)).bind_ends (fun e he => ?_) fun next hb => ?_
    · exact hhead (he.mono fun _ ht => ⟨_, by omega, hlast, .inl ht⟩)
    subst hb
    refine (ends_writeBlock (by omega) (by omega) _).mono (fun _ st' hput => ?_)
      fun e st' htorn => ?_
    · exact ⟨hput.1.trans (putBlock_putHead hrest), hadmits⟩
    · have hstrikes : plan.Strikes (Transfer.OfTable l) e :=
        htorn.strikes.mono fun _ ht => ⟨_, by omega, hlast, .inr ht⟩
      rcases htorn with ⟨rfl, -⟩ | ⟨rfl, -⟩
      · exact hhead hstrikes
      · -- what goes on in the next block lies in the first half of it
        rw [Bytes.splice_eq_left, putBlock_putHead hrest]
        · exact .complete hstrikes hi hadmits
        · intro j hj hle
          rw [Bytes.getElem_write, if_pos (Nat.zero_le j), List.getElem?_eq_none, Option.getD_none]
          rw [List.length_drop, hlen]
          simp only [inodeRecordSize, sectorSize] at hle ⊢
          omega

end Store

end BlockFS
