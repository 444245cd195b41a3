import BlockFS.Proofs.Calls.Requests
import BlockFS.Proofs.Undoing.Volumes

/-!
# Requests that are refused

A request that is refused leaves the volume as it was, also where it is refused only after the volume
was asked to act.
-/

namespace BlockFS

open Volume

variable {l : Layout} {plan : FaultPlan} {α : Type}

instance : Exposed (ServerScene l) Kernel.Server where
  under plan t history := ⟨Exposed.under plan t.scene history, t.owner, t.group⟩

instance : Calm (ServerScene l) := ⟨fun _ _ => rfl⟩

namespace Kernel

variable {t : ServerScene l} {p : Nat} {raw : List UInt8} {name : String}

/-- An action on the volume that undoes what it did does so for a server. -/
theorem undoes_onVolume {s : Scene l} {x : VolumeM α} {Q : α → Scene l → Prop}
    (hx : Ends .never x t.scene Q fun _ s' => s.Intact s') :
    Ends .never (onVolume x) t (fun a t' => Q a t'.scene) (fun _ t' => s.Intact t'.scene) := by
  intro history
  simp only [Exposed.under, onVolume]
  rcases hx history with ⟨a, s', h', hx, hq⟩ | ⟨e, s', h', hx, he⟩
  · simp only [Exposed.under] at hx
    simp only [hx]
    exact .inl ⟨a, ⟨s', t.owner, t.group⟩, h', rfl, hq⟩
  · simp only [Exposed.under] at hx
    simp only [hx]
    exact .inr ⟨e.errno, ⟨s', t.owner, t.group⟩, h', rfl, he⟩

/-- What follows the name and the directory of a request. -/
theorem undoes_ofName {x : Nat → String → ServerM α} {Q : α → ServerScene l → Prop}
    (hx : ∀ p name, Ends .never (x p name) t Q fun _ t' => t.scene.Intact t'.scene) :
    Ends .never (entryName raw >>= fun name => inodeIndex p >>= fun p => x p name) t Q
      (fun _ t' => t.scene.Intact t'.scene) :=
  (quiet_entryName raw).bind_ends (fun _ => .refl _) fun name =>
    (quiet_inodeIndex p).bind_ends (fun _ => .refl _) fun p => hx p name

/-- The inode that a name leads to can be read, unless nothing was made. -/
theorem undoes_named {x : Nat → String → VolumeM Nat} {k : Kind} (hk : k ≠ .free)
    (hx : ∀ p name, Ends .never (x p name) t.scene (Scene.Obtains k t.scene)
      fun _ s' => t.scene.Intact s') :
    Ends .never (named p raw x) t
      (fun found t' => t'.scene = t.scene ∨ found.2.kind = k)
      (fun _ t' => t.scene.Intact t'.scene) := by
  refine undoes_ofName fun p name => (undoes_onVolume (hx p name)).bind fun i t' hobtains => ?_
  have hread : Ends .never (readInode i) t'.scene (fun x s' => s' = t.scene ∨ x.kind = k)
      (fun _ s' => t.scene.Intact s') := by
    refine (hobtains.ends_readInode hk).mono (fun x s' h => ?_) fun _ s' h => ?_
    · rw [h.1]
      exact h.2
    · rw [h]
      exact .refl _
  exact (undoes_onVolume hread).bind fun _ _ h => .pure h

theorem undoes_namedAttributes {x : Nat → String → VolumeM Nat} {k : Kind} (hk : k ≠ .free)
    (hx : ∀ p name, Ends .never (x p name) t.scene (Scene.Obtains k t.scene)
      fun _ s' => t.scene.Intact s') :
    Ends .never (namedAttributes p raw x) t (fun _ _ => True)
      (fun _ t' => t.scene.Intact t'.scene) :=
  (undoes_named hk hx).bind fun _ _ _ => (does_attributesOf _ _).ends_ok trivial

/-- Taking a volume into use cannot fail, for it can be mounted and has a root directory. -/
theorem undoes_takeIntoUse (hs : t.scene.Good) (owner group : Nat) :
    Ends .never (takeIntoUse owner group) t (fun _ _ => True)
      (fun _ t' => t.scene.Intact t'.scene) := by
  let t' : ServerScene l := ⟨t.scene, owner, group⟩
  -- the user is noted first, and only then the volume is mounted if it is not yet
  have hset : Does (modify fun s => { s with owner := owner, group := group } : ServerM Unit) t
      (.ok ()) t' := Does.modify fun history => ⟨history, rfl⟩
  have hrest {t : ServerScene l} (hm : t.scene.mounted = true) (hs : t.scene.Good) :
      Does (onVolume (Volume.readInode rootInode) >>= fun root =>
        unless root.kind = .directory do throw Error.corruptVolume.errno) t (.ok ()) t := by
    have hroot : t.scene.records.kind rootInode = .directory := hs.tidy.tree.root
    have hused := Records.used_of_kind_ne (Records.ne_free_of_directory hroot)
    refine Does.bind (does_onVolume (does_readInode hm hused)) ?_
    rw [if_pos ((Records.kind_of_used hused).symm.trans hroot)]
    exact Does.pure _ _
  have hmounted (history : History) :
      (Exposed.under .never t' history : Server).volume.isMounted = t.scene.mounted :=
    isMounted_state history
  refine Ends.bind (Q := fun _ t'' => t'' = t') (hset.ends_ok rfl) fun _ t'' ht => ?_
  subst ht
  refine Ends.get_bind fun history => ?_
  rw [hmounted]
  by_cases hm : t.scene.mounted = true
  · rw [if_pos hm]
    exact ((Does.pure _ _).bind (hrest (t := t') hm hs)).ends_ok trivial
  · rw [if_neg hm]
    let s' : Scene l := { t.scene with mounted := true, cwd := rootInode }
    have hgood : s'.Good := ⟨hs.tidy, hs.tidy.tree.root⟩
    have hmount : Does (onVolume mount) t' (.ok ()) ⟨s', owner, group⟩ := does_onVolume does_mount
    exact (hmount.bind (hrest rfl hgood)).ends_ok trivial

theorem undoes_removeKind (hs : t.scene.Good) (expected : Kind) :
    Ends .never (removeKind p raw expected) t (fun _ _ => True)
      (fun _ t' => t.scene.Intact t'.scene) := by
  refine undoes_ofName fun p name => ?_
  refine (quiet_onVolume (quiet_find _ _)).bind_ends (fun _ => .refl _) fun i => ?_
  refine (quiet_onVolume (quiet_readInode _)).bind_ends (fun _ => .refl _) fun record => ?_
  dsimp only
  split
  · exact undoes_onVolume (undoes_unlink hs p name)
  · split
    · exact .throw (.refl _)
    · exact .throw (.refl _)

/-- A write that is refused because nothing was written changed nothing. -/
theorem undoes_write (hs : t.scene.Good) (i : Nat) (offset : Int) (data : List UInt8) :
    Ends .never (answer (.write i offset data)) t (fun _ _ => True)
      (fun _ t' => t.scene.Intact t'.scene) := by
  refine (quiet_inodeIndex i).bind_ends (fun _ => .refl _) fun i => ?_
  refine (quiet_byteOffset offset).bind_ends (fun _ => .refl _) fun offset => ?_
  refine (undoes_onVolume (undoes_writeAt hs i offset data)).bind fun count t' hidle => ?_
  split
  · next hnone =>
    refine Ends.throw_bind ?_
    rw [hidle hnone.1]
    exact .refl _
  · exact Ends.pure trivial

/-- What is refused because it is no file was linked before, for what was just made is one. -/
theorem undoes_create (hs : t.scene.Good) :
    Ends .never (answer (.create p raw)) t (fun _ _ => True)
      (fun _ t' => t.scene.Intact t'.scene) := by
  refine (undoes_named (k := .file) Kind.noConfusion fun p name =>
    undoes_makeFile hs p name).bind fun found t' hfound => ?_
  obtain ⟨i, record⟩ := found
  by_cases hkind : record.kind = .file
  · simp only [if_pos hkind]
    exact Does.ends_ok (Does.bind (does_attributesOf i record) (Does.pure _ _)) trivial
  · simp only [if_neg hkind]
    refine Ends.throw_bind ?_
    rw [hfound.resolve_right hkind]
    exact .refl _

theorem undoes_rename (hs : t.scene.Good) (p' : Nat) (raw' : List UInt8) :
    Ends .never (answer (.rename p raw p' raw')) t (fun _ _ => True)
      (fun _ t' => t.scene.Intact t'.scene) := by
  rw [answer]
  by_cases hp : p = p'
  · simp only [if_pos hp]
    refine undoes_ofName fun p old => ?_
    refine (quiet_entryName raw').bind_ends (fun _ => .refl _) fun new => ?_
    exact (undoes_onVolume (undoes_relabel hs p old new)).bind fun _ _ _ => .pure trivial
  · simp only [if_neg hp]
    exact Ends.throw_bind (.refl _)

/-- A request that is refused leaves the volume as it was. -/
theorem undoes_answer (hs : t.scene.Good) (q : Request) :
    Ends .never (answer q) t (fun _ _ => True) (fun _ t' => t.scene.Intact t'.scene) := by
  have hlooks {α : Type} {x : ServerM α} (hx : Quiet x t) :
      Ends .never x t (fun _ _ => True) (fun _ t' => t.scene.Intact t'.scene) :=
    hx.ends (fun _ => trivial) fun _ => .refl _
  have hdone {x : ServerM Unit} (hx : Ends .never x t (fun _ _ => True)
      (fun _ t' => t.scene.Intact t'.scene)) :
      Ends .never (x >>= fun _ => pure Reply.done) t (fun _ _ => True)
        (fun _ t' => t.scene.Intact t'.scene) := hx.bind fun _ _ _ => .pure trivial
  cases q with
  | init owner group => exact hdone (undoes_takeIntoUse hs owner group)
  | destroy => exact hdone ((does_onVolume does_unmount).ends_ok trivial)
  | lookup p raw =>
    exact .map (undoes_namedAttributes (k := .file) Kind.noConfusion fun p name =>
      (quiet_find p name).ends (fun _ => .inl rfl) fun _ => .refl _)
  | getAttributes i => exact .map (hlooks (quiet_readAttributes i))
  | setAttributes i => exact .map (hlooks (quiet_readAttributes i))
  | makeNode p raw mode =>
    rw [answer]
    split
    · exact .map (undoes_namedAttributes (k := .file) Kind.noConfusion fun p name =>
        undoes_makeFile hs p name)
    · exact .throw (.refl _)
  | makeDirectory p raw =>
    exact .map (undoes_namedAttributes (k := .directory) Kind.noConfusion fun p name =>
      undoes_makeDirectory hs p name)
  | create p raw => exact undoes_create hs
  | openFile i => exact hlooks (quiet_answer_openFile i)
  | readDirectory i offset buffer => exact hlooks (quiet_answer_readDirectory i offset buffer)
  | read i offset size => exact hlooks (quiet_answer_read i offset size)
  | write i offset data => exact undoes_write hs i offset data
  | unlink p raw => exact hdone (undoes_removeKind hs .file)
  | removeDirectory p raw => exact hdone (undoes_removeKind hs .directory)
  | rename p raw p' raw' => exact undoes_rename hs p' raw'
  | statistics => exact hlooks quiet_answer_statistics

end Kernel

end BlockFS
