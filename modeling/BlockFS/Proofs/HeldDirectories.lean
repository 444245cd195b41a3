import BlockFS.Proofs.Calls
import BlockFS.Proofs.Faults.Views
import BlockFS.Proofs.NameMaps
import BlockFS.Proofs.Runs

/-!
# Directories held in memory

A directory is changed in memory first, and its table is then written as a whole.  What the table
refuses changes nothing.  But a change stays in the directory also when the write fails, and the next
write that succeeds brings it onto the disk.  So the table in memory depends on nothing but the changes
that were attempted, and neither on the volume nor on the transfers that failed.
-/

namespace BlockFS

open Volume

/-! ## Writing a block of any volume -/

/-- The volume with another disk. -/
def Volume.withDisk (v : Volume) (disk : Disk) : Volume :=
  { v with device := { v.device with disk := disk } }

/-- The second volume is the first one with another disk, after some transfers. -/
def Volume.Leaves (v : Volume) (disk : Disk) (v' : Volume) : Prop :=
  ∃ history, v' = ⟨⟨disk, v.device.faults, history⟩, v.clock, v.layout, v.cwd⟩

/-- A volume that need not be mounted stands for itself under a plan of failures. -/
instance : Exposed Volume Volume where
  under plan v history := ⟨⟨v.device.disk, plan, history⟩, v.clock, v.layout, v.cwd⟩

/-- Why a block of a volume is not written as a whole. -/
inductive Volume.Hinders (v : Volume) (plan : FaultPlan) (i : Nat) : Error → Prop where
  | unmounted (layout : v.layout = none) : v.Hinders plan i .notMounted
  | outside {l : Layout} (layout : v.layout = some l) (le : l.blockCount ≤ i) :
      v.Hinders plan i .corruptVolume
  | struck {e : Error} (strikes : plan.Strikes (Transfer.WritesTo i) e) : v.Hinders plan i e

/-- An action on the device of any volume. -/
theorem Volume.ends_onDevice_any {plan : FaultPlan} {α : Type} {x : DeviceM α} {v : Volume}
    {Q : α → Disk → Prop} {E : Error → Disk → Prop} (h : Ends plan x v.device.disk Q E) :
    Ends plan (onDevice x) v (fun a v' => ∃ d, v' = v.withDisk d ∧ Q a d)
      (fun e v' => ∃ d, v' = v.withDisk d ∧ E e d) := by
  intro history
  simp only [Exposed.under, onDevice]
  rcases h history with ⟨a, d, h', hx, hq⟩ | ⟨e, d, h', hx, he⟩
  · simp only [Exposed.under] at hx
    simp only [hx]
    exact .inl ⟨a, v.withDisk d, h', rfl, d, rfl, hq⟩
  · simp only [Exposed.under] at hx
    simp only [hx]
    exact .inr ⟨e, v.withDisk d, h', rfl, d, rfl, he⟩

/-- Whether or not a volume is mounted, a block that is not written as a whole stays as it was, or its
first half is written. -/
theorem Volume.ends_writeBlock_any {plan : FaultPlan} (v : Volume) (i : Nat) (b : Block) :
    Ends plan (writeBlock i b) v
      (fun _ v' => v' = v.withDisk (v.device.disk.putBlock i b) ∧
        plan.Admits (.write (2 * i)) ∧ plan.Admits (.write (2 * i + 1)))
      (fun e v' => v.Hinders plan i e ∧
        (v' = v ∨ v' = v.withDisk (v.device.disk.writeSector (2 * i) b.lower))) := by
  refine Ends.bind (Q := fun l v' => v' = v ∧ v.layout = some l) ?_ fun l v' hmounted => ?_
  · refine Ends.get_bind fun history => ?_
    simp only [Exposed.under]
    cases hlayout : v.layout with
    | none => exact .throw ⟨.unmounted hlayout, .inl rfl⟩
    | some l => exact .pure ⟨rfl, rfl⟩
  obtain ⟨rfl, hlayout⟩ := hmounted
  rw [Layout.writeBlock]
  by_cases hi : i < l.blockCount
  · rw [if_pos hi]
    refine (ends_onDevice_any (ends_device_writeHalves b)).mono (fun _ _ hdisk => ?_)
      fun e _ hdisk => ?_
    · obtain ⟨_, rfl, rfl, hadmits⟩ := hdisk
      exact ⟨rfl, hadmits⟩
    · obtain ⟨_, rfl, ⟨rfl, hstrikes⟩ | ⟨rfl, -, hstrikes⟩⟩ := hdisk
      · exact ⟨.struck (hstrikes.mono fun _ ht => .inl ht), .inl rfl⟩
      · exact ⟨.struck (hstrikes.mono fun _ ht => .inr ht), .inr rfl⟩
  · rw [if_neg hi]
    have hthrow : Ends plan (throw .corruptVolume : DeviceM Unit) v'.device.disk (fun _ _ => False)
        (fun e d => e = .corruptVolume ∧ d = v'.device.disk) := .throw ⟨rfl, rfl⟩
    refine (ends_onDevice_any hthrow).mono (fun _ _ hdisk => ?_) fun e _ hdisk => ?_
    · obtain ⟨_, -, hnone⟩ := hdisk
      exact hnone.elim
    · obtain ⟨_, rfl, rfl, rfl⟩ := hdisk
      exact ⟨.outside hlayout (Nat.le_of_not_lt hi), .inl rfl⟩

namespace Directory

/-! ## Changes -/

/-- A change of the entries of a directory. -/
inductive Change where
  | link (name : String) (target : Nat)
  | unlink (name : String)
  | relabel (old new : String)

namespace Change

variable {c : Change} {t : EntryTable} {e : Error}

/-- What a change makes of a table, unless the table refuses it. -/
def edit : Change → EntryTable → Except Error EntryTable
  | link name target, t => t.link name target
  | unlink name, t => Prod.snd <$> t.unlink name
  | relabel old new, t => t.relabel old new

/-- The change made through a directory that is held in memory. -/
def action : Change → ViewM Directory Unit
  | link name target => Directory.link name target
  | unlink name => do let _ ← Directory.unlink name
  | relabel old new => Directory.relabel old new

/-- The table after a change, which is as it was where it refuses the change. -/
def apply (c : Change) (t : EntryTable) : EntryTable :=
  match c.edit t with
  | .ok t' => t'
  | .error _ => t

theorem apply_of_ok {t' : EntryTable} (h : c.edit t = .ok t') : c.apply t = t' := by
  rw [apply, h]

theorem apply_of_error (h : c.edit t = .error e) : c.apply t = t := by
  rw [apply, h]

/-- Every change reads the table in memory, and replaces it as a whole. -/
theorem action_eq (c : Change) : c.action =
    ViewM.current >>= fun d => liftExcept (c.edit d.table) >>= replaceTable := by
  cases c with
  | link name target => rfl
  | relabel old new => rfl
  | unlink name =>
    simp only [action, Directory.unlink, bind_assoc, pure_bind]
    congr 1
    funext d
    simp only [edit]
    cases d.table.unlink name with
    | error e => rfl
    | ok found => exact bind_pure_unit (x := (replaceTable found.2 : ViewM Directory Unit))

/-- Why a table refuses a change. -/
theorem edit_error (h : c.edit t = .error e) :
    e = .invalidName ∨ e = .notFound ∨ e = .noSpace := by
  cases c with
  | link name target => exact EntryTable.link_error h
  | unlink name =>
    cases hunlink : t.unlink name with
    | error e' =>
      rw [edit, hunlink] at h
      cases h
      exact .inr (.inl (EntryTable.unlink_error hunlink))
    | ok found =>
      rw [edit, hunlink] at h
      cases h
  | relabel old new => exact (EntryTable.relabel_error h).imp_right .inl

/-- How a change may end that is attempted through a directory. -/
inductive Outcome (c : Change) (d : Directory) (v : Volume) :
    EStateM.Result Error (Held Directory) Unit → Prop where
  | refused {e : Error} (edit : c.edit d.table = .error e)
      (cause : e = .invalidName ∨ e = .notFound ∨ e = .noSpace) : Outcome c d v (.error e ⟨d, v⟩)
  | unwritten {e : Error} {t : EntryTable} {v' : Volume} (edit : c.edit d.table = .ok t)
      (cause : v.Hinders v.device.faults d.block e)
      (leaves : v.Leaves v.device.disk v' ∨
        v.Leaves (v.device.disk.writeSector (2 * d.block) t.toBlock.lower) v') :
      Outcome c d v (.error e ⟨{ d with table := t }, v'⟩)
  | written {t : EntryTable} {v' : Volume} (edit : c.edit d.table = .ok t)
      (admits : v.device.faults.Admits (.write (2 * d.block)) ∧
        v.device.faults.Admits (.write (2 * d.block + 1)))
      (leaves : v.Leaves (v.device.disk.putBlock d.block t.toBlock) v')
      (stored : EntryTable.ofBlock (v'.device.disk.block d.block) = t) :
      Outcome c d v (.ok () ⟨{ d with table := t }, v'⟩)

/-- What the table does not refuse comes into the directory, and a write is attempted. -/
theorem ends_action {plan : FaultPlan} {d : Directory} (hedit : c.edit d.table = .ok t)
    (v : Volume) :
    Ends plan c.action (d, v)
      (fun _ s => s.1 = { d with table := t } ∧
        s.2 = v.withDisk (v.device.disk.putBlock d.block t.toBlock) ∧
        plan.Admits (.write (2 * d.block)) ∧ plan.Admits (.write (2 * d.block + 1)))
      (fun e s => s.1 = { d with table := t } ∧
        v.Hinders plan d.block e ∧
        (s.2 = v ∨ s.2 = v.withDisk (v.device.disk.writeSector (2 * d.block) t.toBlock.lower))) := by
  rw [action_eq]
  refine ViewM.current_bind ?_
  rw [hedit]
  exact .ok_bind (ViewM.change_bind (ViewM.current_bind
    (ViewM.ends_onVolume (v.ends_writeBlock_any d.block t.toBlock))))

theorem action_refused {d : Directory} (hedit : c.edit d.table = .error e) (v : Volume) :
    c.action ⟨d, v⟩ = .error e ⟨d, v⟩ := by
  rw [action_eq]
  change (liftExcept (c.edit d.table) >>= replaceTable) (Held.mk d v) = _
  rw [hedit]
  rfl

/-- Through any directory and on any volume, whatever transfers fail, a change ends in one of three
ways. -/
theorem outcome (c : Change) (d : Directory) (v : Volume) : c.Outcome d v (c.action ⟨d, v⟩) := by
  cases hedit : c.edit d.table with
  | error e =>
    rw [action_refused hedit v]
    exact .refused hedit (edit_error hedit)
  | ok t =>
    rcases ends_action hedit v v.device.history with
      ⟨_, ⟨_, _⟩, history, hx, rfl, rfl, hadmits⟩ |
      ⟨e, ⟨_, v'⟩, history, hx, rfl, hcause, hleft⟩
    · refine hx ▸ .written hedit hadmits ⟨history, rfl⟩ ?_
      change EntryTable.ofBlock ((v.device.disk.putBlock d.block t.toBlock).block d.block) = t
      rw [Disk.block_putBlock, if_pos rfl, EntryTable.ofBlock_toBlock]
    · refine hx ▸ .unwritten hedit hcause (hleft.imp ?_ ?_)
      · rintro rfl
        exact ⟨history, rfl⟩
      · rintro rfl
        exact ⟨history, rfl⟩

/-- On a mounted volume on which no transfer fails, what the table does not refuse is written. -/
theorem action_written {d : Directory} {v : Volume} {l : Layout} (hedit : c.edit d.table = .ok t)
    (hlayout : v.layout = some l) (hlt : d.block < l.blockCount) :
    ∃ v', c.action ⟨d, v.withFaults .never⟩ = .ok () ⟨{ d with table := t }, v'⟩ ∧
      EntryTable.ofBlock (v'.device.disk.block d.block) = t := by
  have hends := c.outcome d (v.withFaults .never)
  generalize c.action ⟨d, v.withFaults .never⟩ = r at hends ⊢
  cases hends with
  | refused hrefused =>
    rw [hedit] at hrefused
    cases hrefused
  | unwritten _ cause =>
    cases cause with
    | unmounted hunmounted => cases hlayout.symm.trans hunmounted
    | outside hlayout' hle =>
      obtain rfl := Option.some.inj (hlayout.symm.trans hlayout')
      exact absurd hlt (Nat.not_lt_of_le hle)
    | struck hstrikes => exact absurd hstrikes FaultPlan.not_strikes_never
  | written hedit' _ _ stored =>
    rw [hedit] at hedit'
    cases hedit'
    exact ⟨_, rfl, stored⟩

/-- Where the first sector of the table cannot be written, the change stays in memory. -/
theorem action_unwritten {d : Directory} {plan : FaultPlan} (hedit : c.edit d.table = .ok t)
    (v : Volume) (hrefused : ¬ plan.Admits (.write (2 * d.block))) :
    ∃ e v', c.action ⟨d, v.withFaults plan⟩ = .error e ⟨{ d with table := t }, v'⟩ ∧
      v'.layout = v.layout := by
  have hends := c.outcome d (v.withFaults plan)
  generalize c.action ⟨d, v.withFaults plan⟩ = r at hends ⊢
  cases hends with
  | refused hnot =>
    rw [hedit] at hnot
    cases hnot
  | written _ admits => exact absurd admits.1 hrefused
  | unwritten hedit' _ leaves =>
    rw [hedit] at hedit'
    cases hedit'
    refine ⟨_, _, rfl, ?_⟩
    rcases leaves with ⟨_, rfl⟩ | ⟨_, rfl⟩
    · rfl
    · rfl

/-- The table in memory is changed whether or not it can be written. -/
theorem view_leftBy (c : Change) (d : Directory) (v : Volume) :
    (leftBy c.action ⟨d, v⟩).view = { d with table := c.apply d.table } := by
  have hends := c.outcome d v
  rw [leftBy]
  generalize c.action ⟨d, v⟩ = r at hends
  cases hends with
  | refused hedit => rw [apply_of_error hedit]
  | unwritten hedit => rw [apply_of_ok hedit]
  | written hedit => rw [apply_of_ok hedit]

end Change

/-! ## Changes one after another -/

/-- The directory after some changes were attempted through it, each on the volume as it was then and
whatever transfers failed. -/
def attempted (d : Directory) (attempts : List (Change × Volume)) : Directory :=
  attempts.foldl (fun d a => (leftBy a.1.action ⟨d, a.2⟩).view) d

/-- The table after the changes that it does not refuse. -/
def tableAfter (t : EntryTable) (changes : List Change) : EntryTable :=
  changes.foldl (fun t c => c.apply t) t

theorem attempted_eq (d : Directory) (attempts : List (Change × Volume)) :
    d.attempted attempts = { d with table := tableAfter d.table (attempts.map Prod.fst) } := by
  induction attempts generalizing d with
  | nil => rfl
  | cons a attempts ih =>
    change ((leftBy a.1.action ⟨d, a.2⟩).view).attempted attempts = _
    rw [ih, Change.view_leftBy]
    rfl

/-- Whatever was attempted through a directory before, it holds every change that its table did not
refuse, also those that could not be written.  What the table refuses changes nothing; everything else
changes the table in memory, and once it can be written, the block on the disk holds all of them. -/
theorem unwritten_changes_stay (d : Directory) (attempts : List (Change × Volume)) (c : Change)
    (v : Volume) :
    let held := d.attempted attempts
    held = { d with table := tableAfter d.table (attempts.map Prod.fst) } ∧
      c.Outcome held v (c.action ⟨held, v⟩) :=
  ⟨d.attempted_eq attempts, c.outcome _ v⟩

/-- The root of a new floppy disk is opened and lies in sectors 24 and 25, which refuse to be written
while a name is linked.  The name is in the directory nevertheless, and the next link brings it onto the
disk. -/
theorem failed_change_stays_floppy :
    ∃ d v, ofInode rootInode Service.floppy.volume = .ok d v ∧ d.find? "a" = none ∧
      ∃ e d' v', link "a" 2 ⟨d, v.withFaults (.refusing [24, 25])⟩ = .error e ⟨d', v'⟩ ∧
        d'.find? "a" = some 2 ∧
        ∃ d'' v'', link "b" 3 ⟨d', v'.withFaults .never⟩ = .ok () ⟨d'', v''⟩ ∧
          (EntryTable.ofBlock (v''.device.disk.block d.block)).find? "a" = some 2 := by
  obtain ⟨s, history, hfloppy, hnew⟩ := Service.floppy_eq
  rw [hfloppy]
  have hroot : s.records.kind rootInode = .directory := (hnew.kind rootInode).trans (if_pos rfl)
  obtain ⟨history₁, hopen⟩ := does_ofInode hnew.mounted hnew.good.tidy.toExact hroot history
  have hblock : (s.directory rootInode).block = 12 := hnew.tableBlock
  have hnone : (s.directory rootInode).table.lookup (.ofList nameWidth [0x61]) = none :=
    hnew.empty.lookup_eq_none (by decide)
  have hfree := hnew.empty.findFinIdx?_isFree (by decide) (by decide)
  refine ⟨s.directory rootInode, _, hopen, (EntryTable.find?_eq StoredName.encode_a).trans hnone, ?_⟩
  -- the first link comes into the table, and neither sector is written
  obtain ⟨hunique, hlookup⟩ := hnew.empty.unique.lookup_put_free (i := 2) hfree hnone (by decide)
    (by decide)
  have hedit : (Change.link "a" 2).edit (s.directory rootInode).table = .ok _ :=
    EntryTable.link_eq (by decide) StoredName.encode_a hfree
  have hrefused : ¬ (FaultPlan.refusing [24, 25]).Admits
      (.write (2 * (s.directory rootInode).block)) := by
    rw [hblock]
    exact fun hadmits => hadmits.not_refused (by decide)
  obtain ⟨e, v', hfails, hlayout⟩ :=
    Change.action_unwritten hedit (Settled.state s history₁ : Volume) hrefused
  have hmounted : v'.layout = some .floppy := by
    rw [hlayout]
    exact congrArg (fun m : Bool => if m then some Layout.floppy else none) hnew.mounted
  refine ⟨e, _, v', hfails, (EntryTable.find?_eq StoredName.encode_a).trans ((hlookup _).trans
    (if_pos rfl)), ?_⟩
  -- the second link writes the table with both
  have hnone' := (hlookup (.ofList nameWidth [0x62])).trans ((if_neg (by decide)).trans
    (hnew.empty.lookup_eq_none (by decide)))
  obtain ⟨slot, hfree'⟩ := hnew.empty.exists_isFree_put ⟨.ofNat 2, .ofList nameWidth [0x61]⟩
  obtain ⟨-, hlookup'⟩ := hunique.lookup_put_free (i := 3) hfree' hnone' (by decide) (by decide)
  have hedit' : (Change.link "b" 3).edit _ = .ok _ :=
    EntryTable.link_eq (by decide) StoredName.encode_b hfree'
  obtain ⟨v'', hwritten, hstored⟩ := Change.action_written
    (d := { s.directory rootInode with table := _ }) hedit' hmounted (by rw [hblock]; decide)
  refine ⟨_, v'', hwritten, ?_⟩
  rw [hstored, EntryTable.find?_eq StoredName.encode_a, hlookup', if_neg (by decide), hlookup,
    if_pos rfl]

end Directory

end BlockFS
