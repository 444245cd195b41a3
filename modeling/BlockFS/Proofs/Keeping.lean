import BlockFS.Proofs.Calls
import BlockFS.Proofs.Ownership

/-!
# What calls keep

An action keeps a property of its states if it never leads from a state with it to one without it,
whether it fails or not.  Here nothing is assumed about what is on the device and which transfers
fail.  Whatever the few actions keep that read and write records, all calls keep: a caretaker of a
property tells which blocks may be written as data, and that no pointer leads to another block.
-/

namespace BlockFS

open Volume ViewM

variable {τ ε α β : Type}

/-- An action keeps `P`, and what it answers has `Q`. -/
def Yields (P : τ → Prop) (x : EStateM ε τ α) (Q : α → Prop) : Prop :=
  ∀ s, P s → (∃ a s', x s = .ok a s' ∧ P s' ∧ Q a) ∨ (∃ e s', x s = .error e s' ∧ P s')

/-- An action keeps `P`. -/
def Keeps (P : τ → Prop) (x : EStateM ε τ α) : Prop := Yields P x fun _ => True

namespace Yields

variable {P : τ → Prop} {Q Q' : α → Prop} {R : β → Prop} {x : EStateM ε τ α}

theorem mono (hx : Yields P x Q) (h : ∀ a, Q a → Q' a) : Yields P x Q' := by
  intro s hs
  rcases hx s hs with ⟨a, s', hx, hs', hq⟩ | herror
  · exact .inl ⟨a, s', hx, hs', h a hq⟩
  · exact .inr herror

theorem keeps (hx : Yields P x Q) : Keeps P x := hx.mono fun _ _ => trivial

theorem pure {a : α} (hq : Q a) : Yields P (Pure.pure a : EStateM ε τ α) Q :=
  fun s hs => .inl ⟨a, s, rfl, hs, hq⟩

theorem throw {e : ε} : Yields P (MonadExcept.throw e : EStateM ε τ α) Q :=
  fun s hs => .inr ⟨e, s, rfl, hs⟩

theorem bind {f : α → EStateM ε τ β} (hx : Yields P x Q) (hf : ∀ a, Q a → Yields P (f a) R) :
    Yields P (x >>= f) R := by
  intro s hs
  change (∃ b s', EStateM.bind x f s = _ ∧ _) ∨ (∃ e s', EStateM.bind x f s = _ ∧ _)
  rcases hx s hs with ⟨a, s', hx, hs', hq⟩ | ⟨e, s', hx, hs'⟩
  · simp only [EStateM.bind, hx]
    exact hf a hq s' hs'
  · simp only [EStateM.bind, hx]
    exact .inr ⟨e, s', rfl, hs'⟩

theorem map {g : α → β} (hx : Yields P x fun a => R (g a)) : Yields P (g <$> x) R := by
  intro s hs
  change (∃ b s', EStateM.map g x s = _ ∧ _) ∨ (∃ e s', EStateM.map g x s = _ ∧ _)
  rcases hx s hs with ⟨a, s', hx, hs', hq⟩ | ⟨e, s', hx, hs'⟩
  · simp only [EStateM.map, hx]
    exact .inl ⟨g a, s', rfl, hs', hq⟩
  · simp only [EStateM.map, hx]
    exact .inr ⟨e, s', rfl, hs'⟩

theorem tryCatch {handler : ε → EStateM ε τ α} (hx : Yields P x Q)
    (hh : ∀ e, Yields P (handler e) Q) : Yields P (tryCatch x handler) Q := by
  intro s hs
  rcases hx s hs with ⟨a, s', hx, hs', hq⟩ | ⟨e, s', hx, hs'⟩
  · exact .inl ⟨a, s', tryCatch_of_ok hx, hs', hq⟩
  · rw [tryCatch_of_error hx]
    exact hh e s' hs'

theorem get : Yields P (MonadState.get : EStateM ε τ τ) P := fun s hs => .inl ⟨s, s, rfl, hs, hs⟩

theorem liftExcept {r : Except ε α} (h : ∀ a, r = .ok a → Q a) :
    Yields P (liftExcept r : EStateM ε τ α) Q := by
  intro s hs
  cases r with
  | ok a => exact .inl ⟨a, s, rfl, hs, h a rfl⟩
  | error e => exact .inr ⟨e, s, rfl, hs⟩

theorem leftBy (hx : Yields P x Q) {s : τ} (hs : P s) : P (leftBy x s) := by
  rw [BlockFS.leftBy]
  rcases hx s hs with ⟨a, s', hx, hs', -⟩ | ⟨e, s', hx, hs'⟩
  · rw [hx]
    exact hs'
  · rw [hx]
    exact hs'

end Yields

namespace Keeps

variable {P : τ → Prop} {x : EStateM ε τ α}

theorem pure (a : α) : Keeps P (Pure.pure a : EStateM ε τ α) := Yields.pure trivial

theorem throw (e : ε) : Keeps P (MonadExcept.throw e : EStateM ε τ α) := Yields.throw

/-- What follows a failure is not done. -/
theorem throw_bind (e : ε) (f : α → EStateM ε τ β) : Keeps P (MonadExcept.throw e >>= f) :=
  fun s hs => .inr ⟨e, s, rfl, hs⟩

theorem bind {f : α → EStateM ε τ β} (hx : Keeps P x) (hf : ∀ a, Keeps P (f a)) :
    Keeps P (x >>= f) :=
  Yields.bind hx fun a _ => hf a

/-- What follows an action may need what that one answers. -/
theorem after {Q : α → Prop} {f : α → EStateM ε τ β} (hx : Yields P x Q)
    (hf : ∀ a, Q a → Keeps P (f a)) : Keeps P (x >>= f) :=
  Yields.bind hx hf

theorem map {g : α → β} (hx : Keeps P x) : Keeps P (g <$> x) := Yields.map hx

theorem get : Keeps P (MonadState.get : EStateM ε τ τ) := Yields.get.keeps

theorem liftExcept (r : Except ε α) : Keeps P (liftExcept r : EStateM ε τ α) :=
  Yields.liftExcept fun _ _ => trivial

theorem modify {f : τ → τ} (h : ∀ s, P s → P (f s)) : Keeps P (modify f : EStateM ε τ Unit) :=
  fun s hs => .inl ⟨(), f s, rfl, h s hs, trivial⟩

theorem forM {f : α → EStateM ε τ PUnit} {as : List α} (h : ∀ a ∈ as, Keeps P (f a)) :
    Keeps P (as.forM f) := by
  induction as with
  | nil => exact pure _
  | cons a as ih =>
    exact (h a (List.mem_cons_self ..)).bind fun _ => ih fun b hb => h b (List.mem_cons_of_mem _ hb)

theorem mapM {f : α → EStateM ε τ β} {as : List α} (h : ∀ a, Keeps P (f a)) :
    Keeps P (as.mapM f) := by
  induction as with
  | nil => exact pure _
  | cons a as ih =>
    rw [List.mapM_cons]
    exact (h a).bind fun _ => ih.bind fun _ => pure _

end Keeps

/-! ## What is kept in a part of the state -/

section

variable {View : Type} {P : Volume → Prop} {S : View → Prop} {Q : α → Prop}

/-- Views that have a property, of a volume that has one. -/
def ViewM.Both (P : Volume → Prop) (S : View → Prop) (held : Held View) : Prop :=
  P held.volume ∧ S held.view

theorem Yields.onVolume {x : VolumeM α} (hx : Yields P x Q) :
    Yields (Both P S) (ViewM.onVolume x) Q := by
  rintro ⟨view, v⟩ ⟨hv, hview⟩
  rcases hx v hv with ⟨a, v', hx, hv', hq⟩ | ⟨e, v', hx, hv'⟩
  · exact .inl ⟨a, ⟨view, v'⟩, by simp only [ViewM.onVolume, hx], ⟨hv', hview⟩, hq⟩
  · exact .inr ⟨e, ⟨view, v'⟩, by simp only [ViewM.onVolume, hx], hv', hview⟩

theorem Yields.through {view : View} {x : ViewM View α} (hx : Yields (Both P S) x Q)
    (hview : S view) : Yields P (through view x) Q := by
  intro v hv
  rcases hx ⟨view, v⟩ ⟨hv, hview⟩ with ⟨a, held, hx, hs, hq⟩ | ⟨e, held, hx, hs⟩
  · exact .inl ⟨a, held.volume, by simp only [ViewM.through, hx], hs.1, hq⟩
  · exact .inr ⟨e, held.volume, by simp only [ViewM.through, hx], hs.1⟩

theorem ViewM.yields_current : Yields (Both P S) current S :=
  Yields.get.bind fun _ hs => .pure hs.2

theorem ViewM.keeps_change {f : View → View} (h : ∀ view, S view → S (f view)) :
    Keeps (Both P S) (change f) :=
  Keeps.modify fun _ hs => ⟨hs.1, h _ hs.2⟩

theorem Keeps.onSession {x : VolumeM α} (hx : Keeps P x) :
    Keeps (fun s : Session => P s.volume) (Session.onVolume x) := by
  rintro ⟨v, files⟩ hv
  rcases hx v hv with ⟨a, v', hx, hv', -⟩ | ⟨e, v', hx, hv'⟩
  · exact .inl ⟨a, ⟨v', files⟩, by simp only [Session.onVolume, hx], hv', trivial⟩
  · exact .inr ⟨e, ⟨v', files⟩, by simp only [Session.onVolume, hx], hv'⟩

theorem Keeps.onServer {x : VolumeM α} (hx : Keeps P x) :
    Keeps (fun s : Kernel.Server => P s.volume) (Kernel.onVolume x) := by
  rintro ⟨v, owner, group⟩ hv
  rcases hx v hv with ⟨a, v', hx, hv', -⟩ | ⟨e, v', hx, hv'⟩
  · exact .inl ⟨a, ⟨v', owner, group⟩, by simp only [Kernel.onVolume, hx], hv', trivial⟩
  · exact .inr ⟨e.errno, ⟨v', owner, group⟩, by simp only [Kernel.onVolume, hx], hv'⟩

end

theorem Volume.keeps_getLayout {P : Volume → Prop} : Keeps P getLayout := by
  refine Keeps.get.bind fun v => ?_
  split
  · exact .pure _
  · exact .throw _

/-! ## Caretakers -/

/-- The blocks that the record of a file or directory points to satisfy `Safe`. -/
def Inode.LeadsTo (Safe : Nat → Prop) (x : Inode) : Prop := ∀ b ∈ x.blocks, Safe b

/-- What keeps a property of volumes: the actions that read and write records keep it, provided that
only safe blocks are written as data or taken back, and pointers and allocation lead to none but
safe ones. -/
structure Caretaker (P : Volume → Prop) (Safe : Nat → Prop) : Prop where
  unmounted : ∀ v, P v → P (.unmounted v.device v.clock)
  wait : ∀ v clock, P v → P { v with clock := clock }
  mount : Keeps P mount
  unmount : Keeps P unmount
  setCwd : ∀ i, Keeps P (setCwd i)
  readBitmap : ∀ r, Keeps P (readBitmap r)
  readBlock : ∀ b, Keeps P (readBlock b)
  readInode : ∀ i, Yields P (readInode i) fun x => x.kind ≠ .free → x.LeadsTo Safe
  writeBlock : ∀ b z, Safe b → Keeps P (writeBlock b z)
  writeInode : ∀ i x, x.LeadsTo Safe → Keeps P (writeInode i x)
  deallocate : ∀ r i, (r = .block → Safe i) → Keeps P (deallocate r i)
  allocateBlock : Yields P allocateBlock fun b => Safe b ∧ b ≠ 0 ∧ b < UInt16.size
  makeFile : Yields P File.make fun f => f.record.LeadsTo Safe
  makeDirectory : ∀ p, Yields P (Directory.make p) fun d => d.record.LeadsTo Safe

variable {P : Volume → Prop} {Safe : Nat → Prop}

theorem Inode.LeadsTo.setPointer {x : Inode} (h : x.LeadsTo Safe) (slot : Nat) {b : Nat}
    (hb : Safe b) (hzero : b ≠ 0) (hlt : b < UInt16.size) : (x.setPointer slot b).LeadsTo Safe := by
  intro b' hb'
  obtain ⟨k, hk⟩ := Inode.mem_blocks_iff.mp hb'
  by_cases hslot : slot < pointerCount
  · rw [Inode.block?_setPointer hslot hzero hlt] at hk
    split at hk
    · exact Option.some.inj hk ▸ hb
    · exact h b' (Inode.mem_blocks_iff.mpr ⟨k, hk⟩)
  · have hsame : x.setPointer slot b = x := by
      rw [Inode.setPointer, Vector.setIfInBounds_eq_of_size_le (Nat.le_of_not_lt hslot)]
    exact h b' (hsame ▸ hb')

theorem Inode.leadsTo_new (kind : Kind) (seconds : Int) :
    (Inode.new kind seconds).LeadsTo Safe := by
  intro b hb
  rw [Inode.blocks_new] at hb
  cases hb

theorem Directory.leadsTo_firstRecord {b : Nat} (clock : Int) (hb : Safe b) (hzero : b ≠ 0)
    (hlt : b < UInt16.size) : (firstRecord clock b).LeadsTo Safe :=
  (Inode.leadsTo_new .directory clock : Inode.LeadsTo Safe
    { Inode.new .directory clock with size := .ofNat blockSize }).setPointer 0 hb hzero hlt

namespace Caretaker

variable (w : Caretaker P Safe)

include w

theorem fileSize (i : Nat) : Keeps P (fileSize i) :=
  (w.readInode i).keeps.bind fun _ => .pure _

/-! ### Directories -/

theorem loadDirectory (i : Nat) :
    Yields P (Directory.ofInode i) fun d => Safe d.block ∧ d.record.LeadsTo Safe := by
  refine (w.readInode i).bind fun x hx => ?_
  by_cases hkind : x.kind = .directory
  · have hsafe : x.LeadsTo Safe := hx (by rw [hkind]; exact Kind.noConfusion)
    simp only [if_pos hkind]
    split
    · exact .throw
    · next b hb =>
      exact Yields.bind (w.readBlock b) fun _ _ =>
        .pure ⟨hsafe b (Inode.mem_blocks_iff.mpr ⟨0, hb⟩), hsafe⟩
  · simp only [if_neg hkind]
    exact Yields.throw.bind fun _ (h : False) => h.elim

theorem replaceTable (t : EntryTable) :
    Keeps (Both P fun d : Directory => Safe d.block) (Directory.replaceTable t) := by
  refine Keeps.bind (ViewM.keeps_change fun _ hd => hd) fun _ => ?_
  exact .after ViewM.yields_current fun d hd => (w.writeBlock d.block _ hd).onVolume

theorem linkName (name : String) (i : Nat) :
    Keeps (Both P fun d : Directory => Safe d.block) (Directory.link name i) :=
  .after ViewM.yields_current fun _ _ => (Keeps.liftExcept _).bind fun _ => w.replaceTable _

theorem unlinkName (name : String) :
    Keeps (Both P fun d : Directory => Safe d.block) (Directory.unlink name) :=
  .after ViewM.yields_current fun _ _ =>
    (Keeps.liftExcept _).bind fun _ => (w.replaceTable _).bind fun _ => .pure _

theorem relabelName (old new : String) :
    Keeps (Both P fun d : Directory => Safe d.block) (Directory.relabel old new) :=
  .after ViewM.yields_current fun _ _ => (Keeps.liftExcept _).bind fun _ => w.replaceTable _

theorem child (e : Entry) : Keeps P e.child :=
  (w.readInode _).keeps.bind fun _ => .pure _

theorem listing (l : Listing) : Keeps P l.items := by
  have hnext (l : Listing) : Keeps P l.next := by
    rw [Listing.next]
    split
    · exact .pure _
    · next e rest _ =>
      have hitem : Keeps P (tryCatch (Except.ok <$> e.child) fun failure => return .error failure) :=
        Yields.tryCatch (w.child e).map fun _ => Keeps.pure _
      exact hitem.bind fun _ => .pure _
  have hsteps (n : Nat) (l : Listing) : Keeps P (Listing.steps n l) := by
    induction n generalizing l with
    | zero => exact .pure _
    | succ n ih => exact (hnext l).bind fun _ => (ih _).bind fun _ => .pure _
  exact (hsteps _ l).bind fun _ => .pure _

/-! ### Files -/

theorem loadFile (i : Nat) : Yields P (File.ofInode i) fun f => f.record.LeadsTo Safe := by
  refine (w.readInode i).bind fun x hx => ?_
  split
  · next hkind => exact .pure (hx (by rw [hkind]; exact Kind.noConfusion))
  · exact .throw
  · exact .throw

theorem readSpans (x : Inode) (spans : List Span) : Keeps P (File.readSpans x spans) := by
  induction spans with
  | nil => exact .pure _
  | cons span spans ih =>
    rw [File.readSpans]
    split
    · exact .pure _
    · exact (w.readBlock _).bind fun _ => ih.bind fun _ => .pure _

theorem readFile (f : File) (offset length : Nat) : Keeps P (f.read offset length) := by
  rw [File.read]
  split
  · exact w.readSpans _ _
  · exact .pure _

theorem blockFor (slot : Nat) (progress : Bool) :
    Yields (Both P fun f : File => f.record.LeadsTo Safe) (File.blockFor slot progress) fun place =>
      ∀ b z, place = some (b, z) → Safe b := by
  refine ViewM.yields_current.bind fun f hf => ?_
  split
  · next b hb =>
    refine Yields.bind (w.readBlock b).onVolume fun z _ => .pure fun b' z' hplace => ?_
    cases hplace
    exact hf b (Inode.mem_blocks_iff.mpr ⟨slot, hb⟩)
  · have hmore : Yields P (File.allocateMore progress) fun place =>
        ∀ b, place = some b → Safe b ∧ b ≠ 0 ∧ b < UInt16.size := by
      refine Yields.tryCatch (w.allocateBlock.mono ?_).map fun e => ?_
      · rintro b hb _ ⟨⟩
        exact hb
      · split
        · exact .pure fun _ hnone => by cases hnone
        · exact .throw
    refine hmore.onVolume.bind fun place hplace => ?_
    split
    · exact .pure fun _ _ hnone => by cases hnone
    · next b =>
      obtain ⟨hsafe, hzero, hlt⟩ := hplace b rfl
      refine Yields.bind (ViewM.keeps_change fun f hf => hf.setPointer slot hsafe hzero hlt)
        fun _ _ => ?_
      refine ViewM.yields_current.bind fun f hf => ?_
      refine Yields.bind (w.writeInode f.index f.record hf).onVolume fun _ _ => .pure ?_
      intro b' z hplace
      cases hplace
      exact hsafe

theorem writeSpans (spans : List Span) (data : List UInt8) (done : Nat) :
    Keeps (Both P fun f : File => f.record.LeadsTo Safe) (File.writeSpans spans data done) := by
  induction spans generalizing data done with
  | nil => exact .pure _
  | cons span spans ih =>
    refine .after (w.blockFor _ _) fun place hplace => ?_
    split
    · exact .pure _
    · next b z => exact Keeps.bind (w.writeBlock b _ (hplace b z rfl)).onVolume fun _ => ih _ _

theorem writeFile (offset : Nat) (data : List UInt8) :
    Keeps (Both P fun f : File => f.record.LeadsTo Safe) (File.write offset data) := by
  refine (w.writeSpans _ _ _).bind fun done => ?_
  split
  · refine Keeps.get.bind fun held => ?_
    refine Keeps.bind (ViewM.keeps_change fun f hf => hf) fun _ => ?_
    refine .after ViewM.yields_current fun f hf => ?_
    exact Keeps.bind (w.writeInode f.index f.record hf).onVolume fun _ => .pure _
  · exact .pure _

theorem discardInode (i : Nat) {x : Inode} (hx : x.LeadsTo Safe) : Keeps P (discardInode i x) :=
  (Keeps.forM fun b hb => w.deallocate .block b fun _ => hx b hb).bind fun _ =>
    w.deallocate .inode i (fun h => by cases h)

/-! ### The tree of names -/

omit w in
theorem splitPath (path : String) : Keeps P (splitPath path) := by
  refine Volume.keeps_getLayout.bind fun _ => ?_
  split
  · exact .pure _
  · exact Keeps.get.bind fun _ => .pure _

theorem find (p : Nat) (name : String) : Keeps P (find p name) := by
  refine Keeps.bind (Yields.tryCatch (w.loadDirectory p).keeps fun e => ?_) fun d => ?_
  · split
    · exact .throw
    · exact .throw
  · split
    · exact .pure _
    · exact .throw _

theorem locate (path : String) : Keeps P (locate path) := by
  refine (splitPath path).bind fun ⟨p, name⟩ => ?_
  simp only
  split
  · exact .pure _
  · exact w.find p name

omit w in
theorem orUndo {Q : α → Prop} {x : VolumeM α} {undo : VolumeM Unit} (hx : Yields P x Q)
    (hundo : Keeps P undo) : Yields P (orUndo x undo) Q :=
  hx.tryCatch fun _ => Yields.bind hundo fun _ _ => .throw

theorem addFile (p : Nat) (name : String) : Keeps P (Volume.makeFile p name) := by
  refine (Keeps.liftExcept _).bind fun _ => .after (w.loadDirectory p) fun d hd => ?_
  split
  · exact .pure _
  · refine .after w.makeFile fun f hf => ?_
    have hlink : Keeps P (through d (Directory.link name f.index)) :=
      (w.linkName name f.index).through hd.1
    exact Keeps.bind (orUndo hlink (w.discardInode f.index hf)) fun _ => .pure _

theorem addDirectory (p : Nat) (name : String) : Keeps P (Volume.makeDirectory p name) := by
  refine (Keeps.liftExcept _).bind fun _ => .after (w.loadDirectory p) fun d hd => ?_
  split
  · exact Keeps.throw_bind _ _
  · refine .after (w.makeDirectory p) fun child hchild => ?_
    have hlink : Keeps P (through d (Directory.link name child.index)) :=
      (w.linkName name child.index).through hd.1
    exact Keeps.bind (orUndo hlink (w.discardInode child.index hchild)) fun _ => .pure _

omit w in
theorem atPath {x : Nat → String → VolumeM α} (hx : ∀ p name, Keeps P (x p name))
    (path : String) :
    Keeps P (Volume.splitPath path >>= fun (place : Nat × String) => x place.1 place.2) :=
  (splitPath path).bind fun _ => hx _ _

theorem readAt (i offset length : Nat) : Keeps P (readAt i offset length) :=
  (w.loadFile i).keeps.bind fun f => w.readFile f offset length

theorem writeAt (i offset : Nat) (data : List UInt8) : Keeps P (writeAt i offset data) :=
  .after (w.loadFile i) fun _ hf => (w.writeFile offset data).through hf

theorem discard (i : Nat) : Keeps P (Volume.discard i) := by
  refine (w.readInode i).keeps.bind fun x => ?_
  split
  · refine .after (w.loadDirectory i) fun d hd => ?_
    split
    · refine (w.discardInode d.index hd.2).bind fun _ => Keeps.get.bind fun v => ?_
      split
      · exact w.setCwd _
      · exact .pure _
    · exact Keeps.throw_bind _ _
  · exact .after (w.loadFile i) fun f hf => w.discardInode f.index hf
  · exact .throw _

theorem unlink (p : Nat) (name : String) : Keeps P (Volume.unlink p name) := by
  rw [Volume.unlink]
  split
  · exact Keeps.throw_bind _ _
  · refine .after (w.loadDirectory p) fun d hd => ?_
    split
    · exact .throw _
    · next i _ =>
      have hunlink : Keeps P (through d (Directory.unlink name)) := (w.unlinkName name).through hd.1
      exact (w.discard i).bind fun _ => hunlink.bind fun _ => .pure _

theorem relabel (p : Nat) (old new : String) : Keeps P (Volume.relabel p old new) := by
  rw [Volume.relabel]
  split
  · exact Keeps.throw_bind _ _
  · refine (Keeps.liftExcept _).bind fun _ => (Keeps.liftExcept _).bind fun _ => ?_
    refine .after (w.loadDirectory p) fun d hd => ?_
    dsimp only
    split
    · exact Keeps.throw_bind _ _
    · split
      · exact .pure _
      · split
        · exact Keeps.throw_bind _ _
        · exact (w.relabelName old new).through hd.1

theorem walk (i : Nat) : Keeps P (walk i) := (w.loadDirectory i).keeps.map

theorem enter (path : String) : Keeps P (enter path) := by
  refine (w.locate path).bind fun i => (w.readInode i).keeps.bind fun x => ?_
  split
  · exact (w.setCwd i).bind fun _ => .pure _
  · exact Keeps.throw_bind _ _

theorem pack (name : String) (contents : List UInt8) : Keeps P (pack name contents) := by
  refine Keeps.bind (Yields.tryCatch (w.find rootInode name).map fun e => ?_) fun taken => ?_
  · split
    · exact .pure trivial
    · exact .throw
  · split
    · exact .pure _
    · exact (w.addFile rootInode name).bind fun i => (w.writeAt i 0 contents).bind fun _ => .pure _

theorem packAll (files : List (String × List UInt8)) : Keeps P (packAll files) := by
  induction files with
  | nil => exact .pure _
  | cons file files ih => exact (w.pack file.1 file.2).bind fun _ => ih.bind fun _ => .pure _

/-! ### Sessions -/

omit w in
theorem setFile (handle : Nat) (file : Option OpenFile) :
    Keeps (fun s : Session => P s.volume) (Session.setFile handle file) :=
  Keeps.modify fun _ hs => hs

omit w in
theorem openFile (handle : Nat) :
    Keeps (fun s : Session => P s.volume) (Session.openFile handle) := by
  refine Keeps.get.bind fun s => ?_
  split
  · exact .pure _
  · exact .throw _

theorem mountSession : Keeps (fun s : Session => P s.volume) Session.mount := by
  refine Keeps.bind (Keeps.modify fun _ hs => hs) fun _ => ?_
  exact w.mount.onSession

theorem openPath (path : String) (flags : OpenFlags) :
    Keeps (fun s : Session => P s.volume) (Session.openPath path flags) := by
  have hinode : Keeps P (Session.inodeToOpen path flags) := by
    refine Yields.tryCatch (w.locate path) fun e => ?_
    split
    · exact atPath (fun p name => w.addFile p name) path
    · exact .throw
  refine Keeps.get.bind fun s => ?_
  split
  · exact .throw _
  · refine hinode.onSession.bind fun i => ?_
    refine (w.loadFile i).keeps.onSession.bind fun _ => ?_
    exact (setFile _ _).bind fun _ => .pure _

theorem readHandle (handle length : Nat) :
    Keeps (fun s : Session => P s.volume) (Session.read handle length) :=
  (openFile handle).bind fun _ => (w.readAt _ _ _).onSession.bind fun _ =>
    (setFile _ _).bind fun _ => .pure _

theorem writeHandle (handle : Nat) (data : List UInt8) :
    Keeps (fun s : Session => P s.volume) (Session.write handle data) := by
  refine (openFile handle).bind fun file => ?_
  have hrest (start : Nat) : Keeps (fun s : Session => P s.volume) (do
      let written ← Session.onVolume (Volume.writeAt file.inode start data)
      Session.setFile handle (some { file with cursor := start + written })
      return written) :=
    (w.writeAt _ _ _).onSession.bind fun _ => (setFile _ _).bind fun _ => .pure _
  dsimp only
  split
  · exact (w.fileSize _).onSession.bind hrest
  · exact (Keeps.pure _).bind hrest

theorem seek (handle : Nat) (distance : Int) (whence : Whence) :
    Keeps (fun s : Session => P s.volume) (Session.seek handle distance whence) := by
  refine (openFile handle).bind fun file => ?_
  have hbase : Keeps P (Session.base file whence) := by
    cases whence with
    | set => exact .pure _
    | current => exact .pure _
    | finish => exact w.fileSize _
  refine hbase.onSession.bind fun base => ?_
  split
  · split
    · exact (setFile _ _).bind fun _ => .pure _
    · exact Keeps.throw_bind _ _
  · exact .throw _

omit w in
theorem close (handle : Nat) : Keeps (fun s : Session => P s.volume) (Session.close handle) :=
  (openFile handle).bind fun _ => setFile _ _

/-! ### Requests -/

omit w in
theorem entryName (raw : List UInt8) :
    Keeps (fun s : Kernel.Server => P s.volume) (Kernel.entryName raw) := by
  rw [Kernel.entryName]
  split
  · exact .pure _
  · exact .throw _

omit w in
theorem inodeIndex (i : Nat) :
    Keeps (fun s : Kernel.Server => P s.volume) (Kernel.inodeIndex i) := by
  rw [Kernel.inodeIndex]
  split
  · exact .pure _
  · exact .throw _

omit w in
theorem byteOffset (offset : Int) :
    Keeps (fun s : Kernel.Server => P s.volume) (Kernel.byteOffset offset) := by
  rw [Kernel.byteOffset.eq_def]
  split
  · split
    · exact .pure _
    · exact .throw _
  · exact .throw _

omit w in
theorem attributesOf (i : Nat) (x : Inode) :
    Keeps (fun s : Kernel.Server => P s.volume) (Kernel.attributesOf i x) :=
  Keeps.get.bind fun _ => .pure _

theorem readRecord (i : Nat) :
    Keeps (fun s : Kernel.Server => P s.volume) (Kernel.onVolume (Volume.readInode i)) :=
  (w.readInode i).keeps.onServer

theorem readAttributes (i : Nat) :
    Keeps (fun s : Kernel.Server => P s.volume) (Kernel.readAttributes i) :=
  (inodeIndex i).bind fun _ => (w.readRecord _).bind fun _ => attributesOf _ _

theorem named {x : Nat → String → VolumeM Nat} (hx : ∀ p name, Keeps P (x p name)) (p : Nat)
    (raw : List UInt8) : Keeps (fun s : Kernel.Server => P s.volume) (Kernel.named p raw x) :=
  (entryName raw).bind fun _ => (inodeIndex p).bind fun _ =>
    (hx _ _).onServer.bind fun _ => (w.readRecord _).bind fun _ => .pure _

theorem namedAttributes {x : Nat → String → VolumeM Nat} (hx : ∀ p name, Keeps P (x p name))
    (p : Nat) (raw : List UInt8) :
    Keeps (fun s : Kernel.Server => P s.volume) (Kernel.namedAttributes p raw x) :=
  (w.named hx p raw).bind fun _ => attributesOf _ _

theorem takeIntoUse (owner group : Nat) :
    Keeps (fun s : Kernel.Server => P s.volume) (Kernel.takeIntoUse owner group) := by
  have hroot : Keeps (fun s : Kernel.Server => P s.volume) (do
      let root ← Kernel.onVolume (Volume.readInode rootInode)
      unless root.kind = .directory do throw Error.corruptVolume.errno) := by
    refine (w.readRecord _).bind fun x => ?_
    split
    · exact .pure _
    · exact .throw _
  refine Keeps.bind (Keeps.modify fun _ hs => hs) fun _ => Keeps.get.bind fun s => ?_
  dsimp only
  split
  · exact hroot
  · exact w.mount.onServer.bind fun _ => hroot

theorem allEntries (i : Nat) : Keeps P (Kernel.allEntries i) :=
  (w.find i "..").bind fun _ => (w.loadDirectory i).keeps.bind fun _ =>
    (Keeps.mapM w.child).bind fun _ => .pure _

theorem removeKind (p : Nat) (raw : List UInt8) (expected : Kind) :
    Keeps (fun s : Kernel.Server => P s.volume) (Kernel.removeKind p raw expected) := by
  refine (entryName raw).bind fun name => (inodeIndex p).bind fun p => ?_
  refine (w.find p name).onServer.bind fun i => (w.readRecord i).bind fun x => ?_
  dsimp only
  split
  · exact (w.unlink p name).onServer
  · split
    · exact .throw _
    · exact .throw _

theorem answer (q : Kernel.Request) :
    Keeps (fun s : Kernel.Server => P s.volume) (Kernel.answer q) := by
  cases q with
  | init owner group => exact (w.takeIntoUse owner group).bind fun _ => .pure _
  | destroy => exact w.unmount.onServer.bind fun _ => .pure _
  | lookup p raw => exact (w.namedAttributes w.find p raw).map
  | getAttributes i => exact (w.readAttributes i).map
  | setAttributes i => exact (w.readAttributes i).map
  | makeNode p raw mode =>
    rw [Kernel.answer]
    split
    · exact (w.namedAttributes w.addFile p raw).map
    · exact .throw _
  | makeDirectory p raw => exact (w.namedAttributes w.addDirectory p raw).map
  | create p raw =>
    refine (w.named w.addFile p raw).bind fun ⟨i, x⟩ => ?_
    dsimp only
    split
    · exact (attributesOf i x).bind fun _ => .pure _
    · exact Keeps.throw_bind _ _
  | openFile i =>
    refine (inodeIndex i).bind fun _ => (w.readRecord _).bind fun x => ?_
    dsimp only
    split
    · exact .pure _
    · exact Keeps.throw_bind _ _
  | readDirectory i offset buffer =>
    exact (inodeIndex i).bind fun _ => (w.allEntries _).onServer.bind fun _ => .pure _
  | read i offset size =>
    exact (inodeIndex i).bind fun _ => (byteOffset offset).bind fun _ =>
      (w.readAt _ _ size).onServer.bind fun _ => .pure _
  | write i offset data =>
    refine (inodeIndex i).bind fun _ => (byteOffset offset).bind fun _ => ?_
    refine (w.writeAt _ _ data).onServer.bind fun count => ?_
    dsimp only
    split
    · exact Keeps.throw_bind _ _
    · exact .pure _
  | unlink p raw => exact (w.removeKind p raw .file).bind fun _ => .pure _
  | removeDirectory p raw => exact (w.removeKind p raw .directory).bind fun _ => .pure _
  | rename p raw p' raw' =>
    rw [Kernel.answer]
    split
    · exact (entryName raw).bind fun _ => (inodeIndex p).bind fun _ =>
        (entryName raw').bind fun _ => (w.relabel _ _ _).onServer.bind fun _ => .pure _
    · exact Keeps.throw_bind _ _
  | statistics =>
    exact (w.readBitmap .block).onServer.bind fun _ =>
      (w.readBitmap .inode).onServer.bind fun _ => .pure _

/-! ### Calls -/

theorem edit (e : Edit) : Keeps P e.action := by
  cases e with
  | wait clock => exact (Keeps.modify fun v hv => w.wait v clock hv).bind fun _ => .pure _
  | mount => exact w.mount.bind fun _ => .pure _
  | unmount => exact w.unmount.bind fun _ => .pure _
  | makeFile p name => exact w.addFile p name
  | makeDirectory p name => exact w.addDirectory p name
  | write i offset data => exact w.writeAt i offset data
  | unlink p name => exact (w.unlink p name).bind fun _ => .pure _
  | relabel p old new => exact (w.relabel p old new).bind fun _ => .pure _
  | enter path => exact w.enter path
  | enterRoot =>
    exact Keeps.bind (Volume.keeps_getLayout.bind fun _ => w.setCwd _) fun _ => .pure _

theorem look (q : Look) : Keeps P q.action := by
  cases q with
  | locate path => exact (w.locate path).bind fun _ => .pure _
  | find p name => exact (w.find p name).bind fun _ => .pure _
  | readAt i offset length => exact (w.readAt i offset length).bind fun _ => .pure _
  | fileSize i => exact (w.fileSize i).bind fun _ => .pure _
  | record i => exact (w.readInode i).keeps.bind fun _ => .pure _
  | list i => exact (w.walk i).bind fun l => (w.listing l).bind fun _ => .pure _
  | bitmap r => exact (w.readBitmap r).bind fun _ => .pure _
  | block b => exact (w.readBlock b).bind fun _ => .pure _

/-- What a caretaker keeps, every call keeps. -/
theorem call (c : Call) {s : Service} (hs : P s.volume) : P (c.after s).volume := by
  have hvolume {α : Type} {x : VolumeM α} (hx : Keeps P x) : P (s.onVolume x).volume :=
    hx.leftBy hs
  have hsession {α : Type} {x : SessionM α} (hx : Keeps (fun s : Session => P s.volume) x) :
      P (s.onSession x).volume := hx.leftBy (s := ⟨s.volume, s.files⟩) hs
  cases c with
  | reopen => exact w.mount.leftBy (w.unmounted _ hs)
  | edit e => exact hvolume (w.edit e)
  | look q => exact hvolume (w.look q)
  | makeFileAt path => exact hvolume (atPath w.addFile path)
  | makeDirectoryAt path => exact hvolume (atPath w.addDirectory path)
  | unlinkHere name =>
    exact hvolume (Volume.keeps_getLayout.bind fun _ => Keeps.get.bind fun v => w.unlink v.cwd name)
  | relabelHere old new =>
    exact hvolume
      (Volume.keeps_getLayout.bind fun _ => Keeps.get.bind fun v => w.relabel v.cwd old new)
  | pack files => exact hvolume (w.packAll files)
  | newSession => exact hs
  | mountSession => exact hsession w.mountSession
  | openPath path flags => exact hsession (w.openPath path flags)
  | readHandle handle length => exact hsession (w.readHandle handle length)
  | writeHandle handle data => exact hsession (w.writeHandle handle data)
  | seek handle distance whence => exact hsession (w.seek handle distance whence)
  | close handle => exact hsession (close handle)
  | newServer => exact hs
  | request q => exact (w.answer q).leftBy (s := ⟨s.volume, s.owner, s.group⟩) hs

end Caretaker

/-! ## Wardens -/

/-- What keeps a property of volumes at every step, also where making something breaks off
half-way. -/
structure Warden (P : Volume → Prop) (Safe : Nat → Prop) : Prop where
  unmounted : ∀ v, P v → P (.unmounted v.device v.clock)
  wait : ∀ v clock, P v → P { v with clock := clock }
  mount : Keeps P mount
  unmount : Keeps P unmount
  setCwd : ∀ i, Keeps P (setCwd i)
  readBitmap : ∀ r, Keeps P (readBitmap r)
  readBlock : ∀ b, Keeps P (readBlock b)
  readInode : ∀ i, Yields P (readInode i) fun x => x.LeadsTo Safe
  writeBlock : ∀ b z, Safe b → Keeps P (writeBlock b z)
  writeInode : ∀ i x, x.LeadsTo Safe → Keeps P (writeInode i x)
  deallocate : ∀ r i, (r = .block → Safe i) → Keeps P (deallocate r i)
  allocate : ∀ r, Yields P (allocate r) fun i => (r = .block → Safe i) ∧ i ≠ 0 ∧ i < UInt16.size

namespace Warden

variable (w : Warden P Safe)

include w

theorem allocateBlock : Yields P allocateBlock fun b => Safe b ∧ b ≠ 0 ∧ b < UInt16.size := by
  refine (w.allocate .block).bind fun b hb => ?_
  have hsafe : Safe b := hb.1 rfl
  refine Yields.bind (Caretaker.orUndo (w.writeBlock b _ hsafe)
    (w.deallocate .block b fun _ => hsafe)) fun _ _ => ?_
  exact .pure ⟨hsafe, hb.2⟩

theorem deallocateInode (i : Nat) : Keeps P (Volume.deallocate .inode i) :=
  w.deallocate .inode i fun h => Resource.noConfusion h

theorem makeFile : Yields P File.make fun f => f.record.LeadsTo Safe := by
  refine (w.allocate .inode).bind fun i _ => Yields.bind Keeps.get fun v _ => ?_
  refine Yields.bind (Caretaker.orUndo (w.writeInode i _ (Inode.leadsTo_new _ _))
    (w.deallocateInode i)) fun _ _ => ?_
  exact .pure (Inode.leadsTo_new _ _)

theorem makeDirectory (p : Nat) :
    Yields P (Directory.make p) fun d => d.record.LeadsTo Safe := by
  refine (w.allocate .inode).bind fun i _ => ?_
  refine Yields.bind (Caretaker.orUndo w.allocateBlock (w.deallocateInode i)) fun b hb => ?_
  obtain ⟨hsafe, hzero, hlt⟩ := hb
  refine Yields.bind Keeps.get fun v _ => ?_
  have hleads : (Directory.firstRecord v.clock b).LeadsTo Safe :=
    Directory.leadsTo_firstRecord v.clock hsafe hzero hlt
  refine Yields.bind (Caretaker.orUndo (Q := fun _ => True) ?_ ?_) fun _ _ => .pure hleads
  · exact (Keeps.liftExcept _).bind fun _ => (w.writeBlock b _ hsafe).bind fun _ =>
      (w.writeInode i _ hleads).bind fun _ => .pure _
  · exact (w.deallocate .block b fun _ => hsafe).bind fun _ => w.deallocateInode i

/-- What is kept at every step is kept. -/
theorem caretaker : Caretaker P Safe where
  unmounted := w.unmounted
  wait := w.wait
  mount := w.mount
  unmount := w.unmount
  setCwd := w.setCwd
  readBitmap := w.readBitmap
  readBlock := w.readBlock
  readInode i := (w.readInode i).mono fun _ hx _ => hx
  writeBlock := w.writeBlock
  writeInode := w.writeInode
  deallocate := w.deallocate
  allocateBlock := w.allocateBlock
  makeFile := w.makeFile
  makeDirectory := w.makeDirectory

end Warden

/-- The service after calls, one after another. -/
def Call.run (cs : List Call) (s : Service) : Service := cs.foldl (fun s c => c.after s) s

/-- What a caretaker keeps, every row of calls keeps. -/
theorem Caretaker.run (w : Caretaker P Safe) (cs : List Call) {s : Service} (hs : P s.volume) :
    P (Call.run cs s).volume := by
  induction cs generalizing s with
  | nil => exact hs
  | cons c cs ih => exact ih (w.call c hs)

end BlockFS
