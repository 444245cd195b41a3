import BlockFS.Proofs.Calls
import BlockFS.Proofs.Scene.Performing

/-!
# Calls on a volume

The calls on a volume itself perform the edits that are told of them.
-/

namespace BlockFS

open Volume

variable {l : Layout} {s : Scene l}

theorem Look.quiet (q : Look) : Quiet q.action s := by
  cases q with
  | locate path => exact (quiet_locate path).bind fun _ => .pure _ _
  | find p name => exact (quiet_find p name).bind fun _ => .pure _ _
  | readAt i offset length => exact (quiet_readAt i offset length).bind fun _ => .pure _ _
  | fileSize i => exact (quiet_fileSize i).bind fun _ => .pure _ _
  | record i => exact (quiet_readInode i).bind fun _ => .pure _ _
  | list i => exact (quiet_walk i).bind fun w => w.quiet_items.bind fun _ => .pure _ _
  | bitmap r => exact (quiet_readBitmap r).bind fun _ => .pure _ _
  | block i => exact (quiet_readBlock i).bind fun _ => .pure _ _

theorem isMounted_state (history : History) :
    (Settled.state s history).isMounted = s.mounted := by
  simp only [isMounted, Settled.state]
  cases s.mounted with
  | true => rfl
  | false => rfl

/-- A path is taken apart, and then the edit is made where it leads. -/
theorem performs_atPath (hs : s.Good) (e : Nat → String → Edit) (path : String)
    (history : History) :
    Performs (splitPath path >>= fun start => (e start.1 start.2).action)
      (Edit.atPath e path (Settled.state s history)) s := by
  by_cases hm : s.mounted = true
  · have hsplit := does_splitPath hm path
    obtain ⟨history', heq⟩ := hsplit history
    rw [Edit.atPath, heq]
    exact .after hsplit rfl (performs_edit _ hs)
  · have hsplit := does_splitPath_unmounted (Bool.eq_false_iff.mpr hm) path
    obtain ⟨history', heq⟩ := hsplit history
    rw [Edit.atPath, heq]
    exact .of_quiet ⟨_, hsplit.bind_error⟩ hs

/-- The edit is made in the current directory. -/
theorem performs_here (hs : s.Good) (e : Nat → Edit) {x : Nat → VolumeM Unit}
    (hx : ∀ i, (e i).action = x i >>= fun _ => pure 0) (history : History) :
    Performs (getLayout >>= fun _ => get >>= fun v => x v.cwd)
      (Edit.here e (Settled.state s history)) s := by
  by_cases hm : s.mounted = true
  · rw [Edit.here, isMounted_state, if_pos hm]
    obtain ⟨r, s', hdo, hes⟩ := performs_of_action (e s.cwd) hs (hx s.cwd)
    exact .after (does_getLayout hm) rfl ⟨r, s', Does.get_bind fun _ => hdo, hes⟩
  · rw [Edit.here, isMounted_state, if_neg hm]
    have hlayout := does_getLayout_unmounted (Bool.eq_false_iff.mpr hm)
    exact .of_quiet ⟨_, hlayout.bind_error⟩ hs

/-! ## Packing files -/

section pack

variable {name : String} {contents : List UInt8} {files : List (String × List UInt8)}
  {s' : Scene l} {e : Error} {i n : Nat}

theorem does_pack_taken (hfind : Does (find rootInode name) s (.ok i) s) :
    Does (pack name contents) s (.ok false) s :=
  (hfind.map (g := some)).tryCatch_ok.bind (Does.pure _ _)

theorem does_pack_failed (hfind : Does (find rootInode name) s (.error e) s)
    (he : e ≠ .notFound) : Does (pack name contents) s (.error e) s := by
  refine Does.bind_error ((hfind.map_error (g := some)).tryCatch_error ?_)
  split
  · exact absurd rfl he
  · exact Does.throw _ _

/-- Where a name is missing, packing makes a file and writes into it. -/
theorem does_pack_missing {r : Except Error Bool}
    (hfind : Does (find rootInode name) s (.error .notFound) s)
    (hrest : Does (makeFile rootInode name >>= fun index =>
      writeAt index 0 contents >>= fun _ => pure true) s r s') :
    Does (pack name contents) s r s' :=
  Does.bind ((hfind.map_error (g := some)).tryCatch_error (Does.pure none s)) hrest

/-- Packing performs its edits file by file. -/
theorem performs_pack (hs : s.Good) (history : History) :
    Performs (packAll files) (Edit.ofPack files (Settled.state s history)) s := by
  induction files generalizing s history with
  | nil => exact .of_quiet (.pure _ _) hs
  | cons file files ih =>
    obtain ⟨name, contents⟩ := file
    obtain ⟨r, hfind⟩ := quiet_find (s := s) rootInode name
    obtain ⟨h1, hfind1⟩ := hfind history
    cases r with
    | ok i =>
      rw [Edit.ofPack, hfind1]
      exact .after (does_pack_taken hfind) rfl ((ih hs h1).bind_quiet fun _ _ => .pure _ _)
    | error e =>
      by_cases he : e = .notFound
      · subst he
        obtain ⟨r, s1, hmake⟩ := Scene.takes (.makeFile rootInode name) hs
        obtain ⟨h2, hmake2⟩ := hmake.does h1
        rw [Edit.action] at hmake2
        cases r with
        | error e =>
          rw [Edit.ofPack, hfind1]
          simp only [withState, hmake2]
          have hpack : Does (pack name contents) s (.error e) s1 :=
            does_pack_missing hfind hmake.does.bind_error
          exact ⟨_, s1, hpack.bind_error, hmake.all⟩
        | ok i =>
          obtain ⟨r, s2, hwrite⟩ := Scene.takes (.write i 0 contents) hmake.good
          obtain ⟨h3, hwrite3⟩ := hwrite.does h2
          rw [Edit.action] at hwrite3
          cases r with
          | error e =>
            rw [Edit.ofPack, hfind1]
            simp only [withState, hmake2, hwrite3]
            have hpack := does_pack_missing hfind (hmake.does.bind hwrite.does.bind_error)
            exact ⟨_, s2, hpack.bind_error, .cons hmake hwrite.all⟩
          | ok n =>
            rw [Edit.ofPack, hfind1]
            simp only [withState, hmake2, hwrite3]
            have hpack := does_pack_missing hfind
              (hmake.does.bind (hwrite.does.bind (Does.pure _ _)))
            obtain ⟨r, s3, hrest, hes⟩ := (ih hwrite.good h3).bind_quiet (β := Nat)
              (f := fun n => pure (n + 1)) fun _ _ => .pure _ _
            exact ⟨r, s3, hpack.bind hrest, .cons hmake (.cons hwrite hes)⟩
      · rw [Edit.ofPack, hfind1]
        simp only [withState]
        exact .of_quiet ⟨_, (does_pack_failed hfind he).bind_error⟩ hs

end pack

end BlockFS
