import BlockFS.Proofs.Causes
import BlockFS.Proofs.PagedListing

/-!
# Walks over any directory

Nothing is assumed of the volume here but that its device does not change: each of its transfers fails
always, or never.  A walk over a directory that can be read then shows each child once, in the order of
the slots, with a failure in the place of a child whose inode cannot be read.  However its steps and
its returns to the start follow one another, it answers what the slots tell.  A walk that keeps its
place as a slot of the table, and skips what is no child, cannot be told apart from a listing.
-/

namespace BlockFS

open Volume ViewM

/-! ## Devices that do not change -/

/-- The plan does not look at what went before. -/
def FaultPlan.Steady (plan : FaultPlan) : Prop :=
  ∀ history history' transfer, plan history transfer = plan history' transfer

/-- A disk, and the transfers that fail whenever they are asked for. -/
structure SteadyDevice where
  disk : Disk
  faults : Transfer → Option IoError

/-- A volume, mounted or not, on a device that does not change. -/
structure SteadyVolume where
  device : SteadyDevice
  clock : Int
  layout : Option Layout
  cwd : Nat

instance : Settled SteadyDevice Device where
  state d history := ⟨d.disk, fun _ => d.faults, history⟩

instance : Settled SteadyVolume Volume where
  state v history := ⟨Settled.state v.device history, v.clock, v.layout, v.cwd⟩

theorem Volume.exists_steady {v : Volume} (h : v.device.faults.Steady) :
    ∃ (s : SteadyVolume) (history : History), v = Settled.state s history := by
  obtain ⟨⟨disk, faults, history⟩, clock, layout, cwd⟩ := v
  have hfaults : faults = fun _ => faults history := by
    funext history' transfer
    exact h history' history transfer
  refine ⟨⟨⟨disk, faults history⟩, clock, layout, cwd⟩, history, ?_⟩
  simp only [Settled.state, ← hfaults]

namespace SteadyDevice

variable (d : SteadyDevice)

theorem quiet_readSector (k : Nat) : Quiet (Device.readSector k) d := by
  cases hfault : d.faults (.read k) with
  | some cause =>
    refine ⟨.error (.device cause), fun history => ⟨⟨history.asked + 1, history.written⟩, ?_⟩⟩
    simp only [Settled.state, Device.readSector, hfault]
    rfl
  | none =>
    cases hsector : d.disk.sector? k with
    | some sector =>
      refine ⟨.ok sector, fun history => ⟨⟨history.asked + 1, history.written⟩, ?_⟩⟩
      simp only [Settled.state, Device.readSector, hfault, hsector]
      rfl
    | none =>
      refine ⟨.error (.device Device.shortRead),
        fun history => ⟨⟨history.asked + 1, history.written⟩, ?_⟩⟩
      simp only [Settled.state, Device.readSector, hfault, hsector]
      rfl

theorem quiet_readBlock (l : Layout) (i : Nat) : Quiet (l.readBlock i) d := by
  rw [Layout.readBlock]
  split
  · exact (d.quiet_readSector _).bind fun _ => (d.quiet_readSector _).bind fun _ => .pure _ d
  · exact .throw _ d

theorem quiet_readInode (l : Layout) (i : Nat) : Quiet (l.readInode i) d := by
  refine (Quiet.liftExcept _ d).bind fun place => (d.quiet_readBlock l _).bind fun b => ?_
  dsimp only
  split
  · exact (d.quiet_readBlock l _).bind fun _ => .pure _ d
  · exact .pure _ d

end SteadyDevice

namespace SteadyVolume

variable (s : SteadyVolume)

theorem quiet_getLayout : Quiet getLayout s := by
  cases hlayout : s.layout with
  | some l =>
    refine ⟨.ok l, Does.get_bind fun history => ?_⟩
    simp only [Settled.state, hlayout]
    exact Does.pure l s
  | none =>
    refine ⟨.error .notMounted, Does.get_bind fun history => ?_⟩
    simp only [Settled.state, hlayout]
    exact Does.throw _ s

theorem quiet_onDevice {α : Type} {x : DeviceM α} (h : Quiet x s.device) :
    Quiet (onDevice x) s := by
  obtain ⟨r, hx⟩ := h
  refine ⟨r, fun history => ?_⟩
  obtain ⟨history', hx⟩ := hx history
  refine ⟨history', ?_⟩
  simp only [Settled.state, onDevice] at hx ⊢
  rw [hx]
  cases r with
  | ok a => rfl
  | error e => rfl

theorem quiet_readBlock (i : Nat) : Quiet (Volume.readBlock i) s :=
  s.quiet_getLayout.bind fun l => s.quiet_onDevice (s.device.quiet_readBlock l i)

theorem quiet_readInode (i : Nat) : Quiet (Volume.readInode i) s := by
  have hbitmap : Quiet (readBitmap .inode) s := s.quiet_getLayout.bind fun l =>
    s.quiet_onDevice ((s.device.quiet_readBlock l _).bind fun _ => .pure _ _)
  refine hbitmap.bind fun b => ?_
  split
  · exact s.quiet_getLayout.bind fun l => s.quiet_onDevice (s.device.quiet_readInode l i)
  · exact .throw _ s

theorem quiet_ofInode (i : Nat) : Quiet (Directory.ofInode i) s := by
  refine (s.quiet_readInode i).bind fun x => ?_
  by_cases hkind : x.kind = .directory
  · simp only [if_pos hkind]
    split
    · exact .throw _ s
    · exact (s.quiet_readBlock _).bind fun _ => .pure _ s
  · simp only [if_neg hkind]
    exact ⟨_, (Does.throw _ _).bind_error⟩

end SteadyVolume

/-! ## What is asked of a walk -/

/-- What is called of a walk. -/
inductive WalkCall where
  | next
  | rewind

/-- What a step of a walk answers: a child, the failure to read one, or nothing at the end. -/
abbrev WalkItem := Option (Except Error Child)

/-- What walks are: how a step is taken, and how they start again. -/
structure Walker (σ : Type) where
  next : σ → VolumeM (WalkItem × σ)
  rewind : σ → σ

/-- What the steps answer in a row of calls. -/
def Walker.run {σ : Type} (w : Walker σ) : List WalkCall → σ → VolumeM (List WalkItem)
  | [], _ => return []
  | .next :: calls, place => do
    let (item, place) ← w.next place
    return item :: (← w.run calls place)
  | .rewind :: calls, place => w.run calls (w.rewind place)

/-- What the steps are to answer where `n` of them were taken since the start: one item after another,
and nothing behind the last one. -/
def itemsTold (items : List (Except Error Child)) : Nat → List WalkCall → List WalkItem
  | _, [] => []
  | n, .next :: calls => items[n]? :: itemsTold items (n + 1) calls
  | _, .rewind :: calls => itemsTold items 0 calls

/-- Walks show items: at each place so many steps were taken since the start, and the next one answers
the next item. -/
structure Walker.Shows {σ : Type} (w : Walker σ) (s : SteadyVolume)
    (items : List (Except Error Child)) (At : Nat → σ → Prop) : Prop where
  next : ∀ n place, At n place →
    ∃ place', Does (w.next place) s (.ok (items[n]?, place')) s ∧ At (n + 1) place'
  rewind : ∀ n place, At n place → At 0 (w.rewind place)

theorem Walker.Shows.run {σ : Type} {w : Walker σ} {s : SteadyVolume}
    {items : List (Except Error Child)} {At : Nat → σ → Prop} (h : w.Shows s items At)
    (calls : List WalkCall) {n : Nat} {place : σ} (hplace : At n place) :
    Does (w.run calls place) s (.ok (itemsTold items n calls)) s := by
  induction calls generalizing n place with
  | nil => exact Does.pure _ s
  | cons call calls ih =>
    cases call with
    | next =>
      obtain ⟨place', hnext, hplace'⟩ := h.next n place hplace
      exact hnext.bind ((ih hplace').bind (Does.pure _ s))
    | rewind => exact ih (h.rewind n place hplace)

/-! ## The two walks -/

/-- The walk of a listing. -/
def Listing.walker : Walker Listing := ⟨next, rewind⟩

/-- A walk that keeps the slot at which its next step begins to look. -/
structure SlotWalk where
  table : EntryTable
  slot : Nat

namespace SlotWalk

/-- Looks at the slots from one on, at most so many, and steps behind the first that links a child. -/
def nextFrom (t : EntryTable) : Nat → Nat → VolumeM (WalkItem × Nat)
  | 0, slot => return (none, slot)
  | left + 1, slot =>
    match t.toList[slot]? with
    | none => return (none, slot)
    | some e =>
      if e.isFree || e.isSelfOrParent then nextFrom t left (slot + 1)
      else do
        let item ← tryCatch (.ok <$> e.child) fun failure => return .error failure
        return (some item, slot + 1)

/-- Takes a step. -/
def next (w : SlotWalk) : VolumeM (WalkItem × SlotWalk) := do
  let (item, slot) ← nextFrom w.table slotCount w.slot
  return (item, ⟨w.table, slot⟩)

/-- The walk from the first slot again. -/
def rewind (w : SlotWalk) : SlotWalk := ⟨w.table, 0⟩

/-- The walk over slots. -/
def walker : Walker SlotWalk := ⟨next, rewind⟩

end SlotWalk

/-! ## What the slots tell -/

/-- The slots that are neither free nor link `.` or `..`, in their order. -/
def EntryTable.childSlots (t : EntryTable) : List (Fin slotCount) :=
  (List.finRange slotCount).filter fun slot =>
    !(t.entry slot).isFree && !(t.entry slot).isSelfOrParent

theorem EntryTable.map_entry_childSlots (t : EntryTable) :
    t.childSlots.map t.entry = t.children := by
  rw [EntryTable.children, ← t.map_entry_finRange, List.filter_map]
  rfl

/-- What a volume tells of the child in a slot: the child, or why its inode cannot be read. -/
def Volume.childItem (v : Volume) (e : Entry) : Except Error Child :=
  (resultOf (readInode e.target) v).map fun x => ⟨e.nameText, e.target, x.kind = .directory⟩

/-- What a volume tells of the children of a table. -/
def Volume.childItems (v : Volume) (t : EntryTable) : List (Except Error Child) :=
  t.childSlots.map fun slot => v.childItem (t.entry slot)

theorem Volume.childItems_eq (v : Volume) (t : EntryTable) :
    v.childItems t = t.children.map v.childItem := by
  rw [← t.map_entry_childSlots, List.map_map]
  rfl

theorem Volume.getElem?_childItems (v : Volume) (t : EntryTable) (n : Nat) :
    (v.childItems t)[n]? = (t.children.drop n).head?.map v.childItem := by
  rw [childItems_eq, List.head?_drop, List.getElem?_map]

section

variable {s : SteadyVolume} {t : EntryTable}

/-- A child that cannot be read does not end a walk. -/
theorem Entry.does_item (e : Entry) (history : History) :
    Does (tryCatch (.ok <$> e.child) fun failure => return .error failure) s
      (.ok ((Settled.state s history : Volume).childItem e)) s := by
  obtain ⟨r, hread⟩ := s.quiet_readInode e.target
  rw [Volume.childItem, hread.resultOf_eq history]
  cases r with
  | ok x =>
    have hchild : Does e.child s (.ok ⟨e.nameText, e.target, x.kind = .directory⟩) s :=
      hread.bind (Does.pure _ s)
    exact hchild.map.tryCatch_ok
  | error failure =>
    have hchild : Does e.child s (.error failure) s := hread.bind_error
    exact hchild.map_error.tryCatch_error (Does.pure _ s)

theorem Listing.does_next_cons (all : List Entry) (e : Entry) (rest : List Entry)
    (history : History) : Does (next ⟨all, e :: rest⟩) s
      (.ok (some ((Settled.state s history : Volume).childItem e), ⟨all, rest⟩)) s :=
  (e.does_item history).bind (Does.pure _ s)

theorem Listing.shows (t : EntryTable) (s : SteadyVolume) (history : History) :
    walker.Shows s ((Settled.state s history : Volume).childItems t)
      fun n l => l.all = t.children ∧ l.rest = t.children.drop n where
  next := by
    rintro n ⟨all, rest⟩ ⟨rfl, rfl⟩
    rw [Volume.getElem?_childItems]
    have htail : t.children.drop (n + 1) = (t.children.drop n).tail := List.tail_drop.symm
    cases hrest : t.children.drop n with
    | nil =>
      rw [hrest] at htail
      exact ⟨⟨t.children, []⟩, Does.pure _ s, rfl, htail.symm⟩
    | cons e rest =>
      rw [hrest] at htail
      exact ⟨⟨t.children, rest⟩, does_next_cons _ e rest history, rfl, htail.symm⟩
  rewind := by
    rintro n ⟨all, rest⟩ ⟨rfl, -⟩
    exact ⟨rfl, rfl⟩

/-- The children from a slot on. -/
def EntryTable.childrenFrom (t : EntryTable) (slot : Nat) : List Entry :=
  (t.toList.drop slot).filter Entry.isChild

/-- A step over slots answers the next child there is, and goes on behind it. -/
theorem SlotWalk.does_nextFrom (history : History) {left slot : Nat}
    (hleft : slotCount ≤ slot + left) :
    ∃ slot', Does (nextFrom t left slot) s
        (.ok ((t.childrenFrom slot).head?.map (Settled.state s history : Volume).childItem, slot'))
        s ∧ t.childrenFrom slot' = (t.childrenFrom slot).tail := by
  have hend {slot : Nat} (h : slotCount ≤ slot) : ∃ slot',
      Does (pure (none, slot) : VolumeM (WalkItem × Nat)) s
        (.ok ((t.childrenFrom slot).head?.map (Settled.state s history : Volume).childItem, slot'))
        s ∧ t.childrenFrom slot' = (t.childrenFrom slot).tail := by
    have hnone : t.childrenFrom slot = [] := by
      rw [EntryTable.childrenFrom, List.drop_of_length_le (by rwa [Vector.length_toList])]
      rfl
    refine ⟨slot, ?_, ?_⟩
    · rw [hnone]
      exact Does.pure _ s
    · rw [hnone]
      rfl
  induction left generalizing slot with
  | zero => exact hend hleft
  | succ left ih =>
    rw [nextFrom]
    cases hslot : t.toList[slot]? with
    | none => exact hend (by simpa using hslot)
    | some e =>
      have hsplit : t.toList.drop slot = e :: t.toList.drop (slot + 1) := by
        obtain ⟨hlt, rfl⟩ := List.getElem?_eq_some_iff.mp hslot
        exact List.drop_eq_getElem_cons hlt
      by_cases hskip : (e.isFree || e.isSelfOrParent) = true
      · have hchild : e.isChild = false := by
          rw [Entry.isChild, ← Bool.not_or, hskip]
          rfl
        have hsame : t.childrenFrom slot = t.childrenFrom (slot + 1) := by
          rw [EntryTable.childrenFrom, hsplit, List.filter_cons, hchild]
          rfl
        obtain ⟨slot', hnext, hbehind⟩ := @ih (slot + 1) (by omega)
        rw [hsame]
        refine ⟨slot', ?_, hbehind⟩
        simp only [hskip, if_true]
        exact hnext
      · have hchild : e.isChild = true := by
          rw [Entry.isChild, ← Bool.not_or, Bool.eq_false_iff.mpr hskip]
          rfl
        have hcons : t.childrenFrom slot = e :: t.childrenFrom (slot + 1) := by
          rw [EntryTable.childrenFrom, hsplit, List.filter_cons, hchild]
          rfl
        rw [hcons]
        refine ⟨slot + 1, ?_, rfl⟩
        simp only [hskip]
        exact (e.does_item history).bind (Does.pure _ s)

theorem SlotWalk.shows (t : EntryTable) (s : SteadyVolume) (history : History) :
    walker.Shows s ((Settled.state s history : Volume).childItems t)
      fun n w => w.table = t ∧ t.childrenFrom w.slot = t.children.drop n where
  next := by
    rintro n ⟨table, slot⟩ ⟨rfl, hrest⟩
    obtain ⟨slot', hnext, hbehind⟩ :=
      does_nextFrom (s := s) (t := table) history (Nat.le_add_left slotCount slot)
    refine ⟨⟨table, slot'⟩, ?_, rfl, ?_⟩
    · rw [Volume.getElem?_childItems, ← hrest]
      exact hnext.bind (Does.pure _ s)
    · rw [hbehind, hrest, List.tail_drop]
  rewind := by
    rintro n ⟨table, slot⟩ ⟨rfl, -⟩
    exact ⟨rfl, rfl⟩

/-- A listing that walks to its end answers all items. -/
theorem Listing.does_items (t : EntryTable) (s : SteadyVolume) (history : History) :
    Does (Listing.mk t.children t.children).items s
      (.ok ((Settled.state s history : Volume).childItems t)) s := by
  have hsteps (es : List Entry) : Does (steps es.length ⟨t.children, es⟩) s
      (.ok (es.map fun e => some ((Settled.state s history : Volume).childItem e),
        ⟨t.children, []⟩)) s := by
    induction es with
    | nil => exact Does.pure _ s
    | cons e es ih =>
      exact (does_next_cons _ e es history).bind (ih.bind (Does.pure _ s))
  have hitems : (t.children.map fun e =>
      some ((Settled.state s history : Volume).childItem e)).filterMap id
        = (Settled.state s history : Volume).childItems t := by
    rw [Volume.childItems_eq, List.filterMap_map]
    exact congrFun List.filterMap_eq_map _
  rw [← hitems]
  exact (hsteps t.children).bind (Does.pure _ s)

end

/-! ## What a removal finds -/

/-- A directory is empty just where no slot links a child. -/
theorem EntryTable.holdsNothing_iff_children (t : EntryTable) :
    t.holdsNothing = true ↔ t.children = [] := by
  rw [holdsNothing_iff, children, List.filter_eq_nil_iff, ← t.map_entry_finRange, List.forall_mem_map]
  refine forall_congr' fun slot => ?_
  rw [Bool.and_eq_true, Bool.not_eq_true', Bool.not_eq_true', Entry.isFree_eq_false_iff, not_and,
    Bool.not_eq_false]
  exact ⟨fun h _ => h, fun h => h (List.mem_finRange slot)⟩

section

variable {S τ ε α β : Type} [Settled S τ] {x : EStateM ε τ α} {s : S} {E : ε → Prop}

/-- From a settled state on, an action fails only for causes that `E` tells of. -/
def BlamesFrom (x : EStateM ε τ α) (s : S) (E : ε → Prop) : Prop :=
  ∀ history e t, x (Settled.state s history) = .error e t → E e

theorem Blames.blamesFrom (h : Blames x E) (s : S) : BlamesFrom x s E :=
  fun _ e t herror => h _ e t herror

theorem Does.blamesFrom_bind {s' : S} {a : α} {f : α → EStateM ε τ β} (hx : Does x s (.ok a) s')
    (hf : BlamesFrom (f a) s' E) : BlamesFrom (x >>= f) s E := by
  intro history e t herror
  obtain ⟨history', hx⟩ := hx history
  rw [bind_of_ok hx] at herror
  exact hf history' e t herror

theorem BlamesFrom.bind {f : α → EStateM ε τ β} (hx : BlamesFrom x s E)
    (hf : ∀ a, Blames (f a) E) : BlamesFrom (x >>= f) s E := by
  intro history e t herror
  cases hresult : x (Settled.state s history) with
  | ok a t' =>
    rw [bind_of_ok hresult] at herror
    exact hf a t' e t herror
  | error e' t' =>
    rw [bind_of_error hresult] at herror
    cases herror
    exact hx history _ _ hresult

end

theorem Directory.blames_discard (d : Directory) : BlamesVolume d.discard :=
  blames_discardInode d.index d.record

section

variable {s : SteadyVolume} {parent index : Nat} {name : String} {d above : Directory}

/-- What can be read as a directory has a record that says so. -/
theorem SteadyVolume.does_readInode_of_directory (hd : Does (Directory.ofInode index) s (.ok d) s) :
    ∃ x : Inode, Does (readInode index) s (.ok x) s ∧ x.kind = .directory := by
  obtain ⟨r, hread⟩ := s.quiet_readInode index
  cases r with
  | error e => cases (hd.result_unique hread.bind_error ⟨0, 0⟩).1
  | ok x =>
    by_cases hkind : x.kind = .directory
    · exact ⟨x, hread, hkind⟩
    · have hthrow : Does (Directory.ofInode index) s (.error .notADirectory) s := by
        refine hread.bind ?_
        simp only [if_neg hkind]
        exact (Does.throw _ s).bind_error
      cases (hd.result_unique hthrow ⟨0, 0⟩).1

theorem SteadyVolume.does_discard_full (hd : Does (Directory.ofInode index) s (.ok d) s)
    (hfull : d.holdsNothing = false) : Does (discard index) s (.error .directoryNotEmpty) s := by
  obtain ⟨x, hread, hkind⟩ := does_readInode_of_directory hd
  refine hread.bind ?_
  simp only [hkind]
  refine hd.bind ?_
  simp only [hfull]
  exact (Does.throw _ s).bind_error

theorem SteadyVolume.blamesFrom_discard (hd : Does (Directory.ofInode index) s (.ok d) s)
    (hempty : d.holdsNothing = true) : BlamesFrom (discard index) s (· ≠ .directoryNotEmpty) := by
  obtain ⟨x, hread, hkind⟩ := does_readInode_of_directory hd
  refine hread.blamesFrom_bind ?_
  simp only [hkind]
  refine hd.blamesFrom_bind ?_
  simp only [hempty, if_true]
  refine Blames.blamesFrom ?_ s
  refine (d.blames_discard.mono fun _ he => he.2).bind fun _ => Blames.get.bind fun _ => ?_
  split
  · exact .modify _
  · exact .pure _

theorem SteadyVolume.does_unlink_full (hname : isSelfOrParent name = false)
    (habove : Does (Directory.ofInode parent) s (.ok above) s) (hfind : above.find? name = some index)
    (hd : Does (Directory.ofInode index) s (.ok d) s) (hfull : d.holdsNothing = false) :
    Does (unlink parent name) s (.error .directoryNotEmpty) s := by
  rw [unlink]
  simp only [hname]
  refine habove.bind ?_
  simp only [hfind]
  exact (does_discard_full hd hfull).bind_error

theorem SteadyVolume.blamesFrom_unlink (hname : isSelfOrParent name = false)
    (habove : Does (Directory.ofInode parent) s (.ok above) s) (hfind : above.find? name = some index)
    (hd : Does (Directory.ofInode index) s (.ok d) s) (hempty : d.holdsNothing = true) :
    BlamesFrom (unlink parent name) s (· ≠ .directoryNotEmpty) := by
  rw [unlink]
  simp only [hname]
  refine habove.blamesFrom_bind ?_
  simp only [hfind]
  exact (blamesFrom_discard hd hempty).bind fun _ =>
    ((above.blames_unlink name).mono fun _ he => he.2).bind fun _ => .pure _

/-- The removal of a directory finds that it is not empty just where a slot links a child. -/
theorem SteadyVolume.unlink_refuses_iff (hname : isSelfOrParent name = false)
    (habove : Does (Directory.ofInode parent) s (.ok above) s) (hfind : above.find? name = some index)
    (hd : Does (Directory.ofInode index) s (.ok d) s) (history : History) :
    resultOf (unlink parent name) (Settled.state s history) = .error .directoryNotEmpty ↔
      d.table.children ≠ [] := by
  rw [Ne, ← d.table.holdsNothing_iff_children]
  cases hempty : d.table.holdsNothing with
  | false =>
    rw [(does_unlink_full hname habove hfind hd hempty).resultOf_eq history]
    simp
  | true =>
    have hblames := blamesFrom_unlink hname habove hfind hd hempty
    refine iff_of_false (fun hrefused => ?_) (not_not_intro rfl)
    rw [resultOf] at hrefused
    cases hresult : unlink parent name (Settled.state s history) with
    | ok a v =>
      rw [hresult] at hrefused
      cases hrefused
    | error e v =>
      rw [hresult] at hrefused
      exact hblames history e v hresult (Except.error.inj hrefused)

end

/-! ## Every walk tells the children -/

theorem Volume.Answers.resultOf_eq {α : Type} {v : Volume} {x : VolumeM α} {r : Except Error α}
    (h : v.Answers x r) : resultOf x v = r := by
  obtain ⟨history, hx⟩ := h
  rw [resultOf, hx]
  cases r with
  | ok a => rfl
  | error e => rfl

/-- Of what only looks, the one answer is what it does. -/
theorem Quiet.does_of_answers {α : Type} {s : SteadyVolume} {x : VolumeM α} {r : Except Error α}
    {history : History} (hx : Quiet x s) (h : (Settled.state s history : Volume).Answers x r) :
    Does x s r s := by
  obtain ⟨r', hx⟩ := hx
  rwa [← h.resultOf_eq, hx.resultOf_eq history]

theorem Does.steady_answers {α : Type} {s : SteadyVolume} {x : VolumeM α} {r : Except Error α}
    (hx : Does x s r s) (history : History) : (Settled.state s history : Volume).Answers x r := by
  obtain ⟨history', hx⟩ := hx history
  exact ⟨history', hx⟩

/-- Walks over a directory tell its children, and so does its removal. -/
structure Volume.WalksExactly (v : Volume) (index : Nat) (d : Directory) : Prop where
  listing : ∀ calls, v.Answers (walk index >>= Listing.walker.run calls)
    (.ok (itemsTold (v.childItems d.table) 0 calls))
  slots : ∀ calls, v.Answers (SlotWalk.walker.run calls ⟨d.table, 0⟩)
    (.ok (itemsTold (v.childItems d.table) 0 calls))
  toEnd : v.Answers (walk index >>= Listing.items) (.ok (v.childItems d.table))
  removal : ∀ parent name above, isSelfOrParent name = false →
    v.Answers (Directory.ofInode parent) (.ok above) → above.find? name = some index →
      (resultOf (unlink parent name) v = .error .directoryNotEmpty ↔ v.childItems d.table ≠ [])

/-- On a device that does not change, whatever the image holds, a walk over a directory that can be
read answers, for each sequence of steps and returns to its start, one item for each of the first slots
that are neither free nor link `.` or `..`, in the order of the slots, with a failure in the place of a
child that cannot be read, and nothing behind the last one.  The directory is refused as not empty just
where the walk answers an item. -/
theorem Volume.walks_exactly {v : Volume} {index : Nat} {d : Directory}
    (hsteady : v.device.faults.Steady) (hd : v.Answers (Directory.ofInode index) (.ok d)) :
    v.WalksExactly index d := by
  obtain ⟨s, history, rfl⟩ := exists_steady hsteady
  have hopen : Does (Directory.ofInode index) s (.ok d) s := (s.quiet_ofInode index).does_of_answers hd
  constructor
  case listing =>
    intro calls
    refine (hopen.map.bind ?_).steady_answers history
    exact (Listing.shows d.table s history).run calls ⟨rfl, rfl⟩
  case slots =>
    intro calls
    exact ((SlotWalk.shows d.table s history).run calls ⟨rfl, rfl⟩).steady_answers history
  case toEnd =>
    exact (hopen.map.bind (Listing.does_items d.table s history)).steady_answers history
  case removal =>
    intro parent name above hname habove hfind
    have hnone : (Settled.state s history : Volume).childItems d.table ≠ [] ↔
        d.table.children ≠ [] := by
      rw [childItems_eq, Ne, List.map_eq_nil_iff]
    rw [hnone]
    exact SteadyVolume.unlink_refuses_iff hname ((s.quiet_ofInode parent).does_of_answers habove)
      hfind hopen history

/-! ### A child that cannot be read -/

/-- A directory can still be read where another inode is marked free. -/
theorem Directory.does_ofInode_mark {l : Layout} {s : Scene l} {p i : Nat} (hm : s.mounted = true)
    (h : s.records.Exact l) (hp : s.records.kind p = .directory) (hi : i < l.inodeCount)
    (hne : p ≠ i) :
    Does (ofInode p) (s.mark .inode i false) (.ok (s.directory p)) (s.mark .inode i false) := by
  have hrecords := s.records_mark (r := .inode) hi false
  have hused : s.records.used .inode p = true :=
    Records.used_of_kind_ne (Records.ne_free_of_directory hp)
  have hkept : (s.mark .inode i false).records.used .inode p = true := by
    rw [hrecords]
    exact (if_neg fun hsame => hne hsame.2).trans hused
  have hkind : (s.records.inode p).kind = .directory := by
    rw [← Records.kind_of_used hused]
    exact hp
  have hown := h.owns_tableBlock hp
  obtain ⟨hge, hlt⟩ := h.blocks.range p 0 _ hown
  have hread := does_readInode (s := s.mark .inode i false) hm hkept
  have hblock := does_readBlock (s := s.mark .inode i false) hm hge hlt
  rw [hrecords] at hread hblock
  apply hread.bind
  simp only [Records.mark, hkind, if_true, hown.points]
  apply hblock.bind
  rw [Scene.directory, Records.table_of_directory hp]
  exact Does.pure _ _

/-- Of the files `a` and `b` the first is marked free behind its name. -/
theorem Scene.HoldsBoth.childItems_damaged {l : Layout} {s : Scene l} (h : s.HoldsBoth)
    (hcount : 2 < l.inodeCount) (history : History) :
    (Settled.state (s.mark .inode 2 false) history : Volume).childItems
        (s.directory rootInode).table = [.error .notFound, .ok ⟨"b", 3, false⟩] := by
  have hrecords := s.records_mark (r := .inode) hcount false
  have hthree : s.records.used .inode 3 = true :=
    Records.used_of_kind_ne (Records.ne_free_of_file h.kind.2)
  have hmissing : Does (readInode 2) (s.mark .inode 2 false) (.error .notFound)
      (s.mark .inode 2 false) := by
    refine does_readInode_free (s := s.mark .inode 2 false) h.mounted ?_
    rw [hrecords]
    rfl
  have hthere : Does (readInode 3) (s.mark .inode 2 false) (.ok (s.records.inode 3))
      (s.mark .inode 2 false) := by
    have hread := does_readInode (s := s.mark .inode 2 false) (i := 3) h.mounted (by
      rw [hrecords]
      exact hthree)
    rw [hrecords] at hread
    exact hread
  have hkind : (s.records.inode 3).kind = .file := by
    rw [← Records.kind_of_used hthree]
    exact h.kind.2
  have htable : (s.directory rootInode).table.children
      = [⟨2, .ofList nameWidth [0x61]⟩, ⟨3, .ofList nameWidth [0x62]⟩] := h.children
  have htarget : Entry.target ⟨2, .ofList nameWidth [0x61]⟩ = 2 := rfl
  have htarget' : Entry.target ⟨3, .ofList nameWidth [0x62]⟩ = 3 := rfl
  rw [childItems_eq, htable, List.map_cons, List.map_cons, List.map_nil, childItem, childItem, htarget,
    htarget', hmissing.resultOf_eq history, hthere.resultOf_eq history]
  simp only [Except.map, hkind]
  rfl

open Service in
/-- The walk over the root of such a volume tells that the first child is not found, and goes on to the
second. -/
theorem Volume.walks_exactly_damaged :
    let v := leftBy (deallocate .inode 2) bothFiles.volume
    ∃ d, v.device.faults.Steady ∧ v.Answers (Directory.ofInode rootInode) (.ok d) ∧
      v.childItems d.table = [.error .notFound, .ok ⟨"b", 3, false⟩] ∧
      v.WalksExactly rootInode d := by
  obtain ⟨-, s, history, hv, hboth⟩ := bothFiles_eq
  obtain ⟨history', hleft⟩ :=
    (does_deallocate (r := .inode) (i := 2) hboth.mounted (by decide)).leftBy_eq history
  rw [hv, hleft]
  have hopen := Directory.does_ofInode_mark (i := 2) hboth.mounted hboth.good.tidy.toExact hboth.root
    (by decide) (by decide)
  have hsteady : (Settled.state (s.mark .inode 2 false) history' : Volume).device.faults.Steady :=
    fun _ _ _ => rfl
  exact ⟨s.directory rootInode, hsteady, hopen.answers history',
    hboth.childItems_damaged (by decide) history', walks_exactly hsteady (hopen.answers history')⟩

end BlockFS
