import Ghostd.Lib.Replay
import Ghostd.Netconfig.Apply

/-!
# `Ghostd.Proofs.Netconfig.Programs`: what applying and rolling back leave

`Frame` fixes the files and the list of actions that were run. Reading, and every command on the
runtime state, keeps it, so the only steps of `Apply` that change the files are its writes, and
the only ones that run an action are those of its last loop (`applyState_triple`). A rollback
changes the files in its record and runs no action (`rollback_triple`).
-/

set_option autoImplicit false

namespace Ghostd.Proofs.Netconfig

open Ghostd.Lib Ghostd.Netconfig List

/-- The files and the actions that were run. -/
def Frame (files : Bucket String String) (ran : List Action) (h : NetHost) : Prop :=
  h.files = files ∧ h.ran = ran

section Frame

variable {files : Bucket String String} {ran : List Action}

/-- A command changes the runtime state only. -/
theorem command_frame (change : Runtime → Option Runtime) (e : String) :
    Keeps (Frame files ran) (command change e) := by
  intro h hframe r hr
  unfold command at hr
  cases hchange : change h.runtime with
  | some rt =>
    rw [hchange] at hr
    have hkeep : Keeps (Frame files ran) (Prog.attempt (fun _ => { h with runtime := rt }) e) :=
      .attempt fun _ _ => hframe
    exact hkeep h hframe r hr
  | none =>
    rw [hchange] at hr
    simp only [mem_cons, not_mem_nil, or_false] at hr
    rcases hr with rfl | rfl <;> exact hframe

theorem observe_frame (e : String) : Keeps (Frame files ran) (observe e) :=
  .bind .fallible fun _ => .bind .get fun _ => .pure

theorem routeState_frame (d : DefaultRoute) : Keeps (Frame files ran) (routeState d) :=
  .bind (observe_frame _) fun _ => .lift

theorem ensureDefaultRoute_frame (d : DefaultRoute) :
    Keeps (Frame files ran) (ensureDefaultRoute d) := by
  refine .bind (routeState_frame d) fun found => ?_
  refine .ite (fun _ => .pure) fun _ => ?_
  refine .handle (command_frame _ _) fun e => ?_
  refine .bind (.handle (routeState_frame d) fun _ => .pure) fun again => ?_
  exact .ite (fun _ => .pure) fun _ => .fail

theorem unlessDone_frame {m : NetProg Unit} (hm : Keeps (Frame files ran) m) (isDone : Runtime → Bool)
    (refused : String → String) : Keeps (Frame files ran) (unlessDone m isDone refused) := by
  refine .handle hm fun e => ?_
  exact .bind (.handle (observe_frame e) fun _ => .fail) fun _ => .require

theorem applyAction_frame (a : Action) : Keeps (Frame files ran) (applyAction a) := by
  cases a with
  | defaultRoute d => exact ensureDefaultRoute_frame d
  | vlan => exact unlessDone_frame (command_frame _ _) _ _
  | addr => exact unlessDone_frame (command_frame _ _) _ _
  | sysctl keyval =>
    show Keeps _ (command (Runtime.setForward (if keyval = "net.ipv4.ip_forward=1" then "1" else "0")) _)
    exact command_frame _ _
  | forward => exact .bind .fallible fun _ => command_frame _ _
  | up => exact command_frame _ _

theorem removeRoute_frame (d : DefaultRoute) : Keeps (Frame files ran) (removeRoute d) := by
  refine .bind (routeState_frame d) fun found => .bind .require fun _ => ?_
  exact .ite (fun _ => command_frame _ _) fun _ => .pure

theorem restoreForward_frame (value : String) : Keeps (Frame files ran) (restoreForward value) := by
  refine .ite (fun _ => .pure) fun _ => ?_
  exact .bind .require fun _ => command_frame _ _

end Frame

/-! ### Loops over files -/

/-- The keys of the entries of a bucket before and at a point of it are apart. -/
theorem key_fresh {α : Type} {b : Bucket String α} {before after : List (String × α)} {x : String × α}
    (h : b.entries = before ++ x :: after) : ∀ e ∈ before, e.1 ≠ x.1 := by
  intro e he
  have hsorted := b.sorted
  rw [h, pairwise_append] at hsorted
  exact ne_of_lt (hsorted.2.2 e he x mem_cons_self)

/-- A target that was applied has its files on disk, and its actions have been run. -/
def Replayed (ds : DesiredState) (h : NetHost) : Prop :=
  (∀ e ∈ ds.files.entries, h.files.get e.1 = some e.2) ∧
    ∃ actions, ds.validate = .ok actions ∧ ∀ a ∈ actions, a ∈ h.ran

/-- A program that reads and writes the runtime state only keeps what is known of the files and
the actions. -/
theorem keeps_of_frame {α : Type} {m : NetProg α} (hm : ∀ files ran, Keeps (Frame files ran) m)
    (P : Bucket String String → List Action → Prop) : Keeps (fun h => P h.files h.ran) m := by
  have hback : ∀ h : NetHost, P h.files h.ran → ∀ s, Frame h.files h.ran s → P s.files s.ran := by
    intro h hP s hs
    rw [hs.1, hs.2]
    exact hP
  refine Triple.of_state fun h hP => (hm h.files h.ran).weaken ?_ (fun _ => hback h hP) (hback h hP)
  intro s hs
  rw [hs]
  exact ⟨rfl, rfl⟩

/-- The writes of `Apply`. -/
theorem writeFiles_triple (files : Bucket String String) :
    Triple (fun _ => True)
      (files.entries.forM fun e => do
        Prog.fallible "context deadline exceeded"
        writeFile e.1 e.2)
      (fun _ h => ∀ e ∈ files.entries, h.files.get e.1 = some e.2) (fun _ => True) := by
  refine (Triple.forM (I := fun before h => ∀ e ∈ before, h.files.get e.1 = some e.2)
    fun before x after hsplit => ?_).weaken (fun _ _ e he => by cases he) (fun _ _ hw => hw) fun _ hw => hw
  refine Triple.bind (R := fun _ h => ∀ e ∈ before, h.files.get e.1 = some e.2)
    (Triple.fallible (fun _ hw => hw) fun _ _ => trivial) fun _ => ?_
  refine Triple.attempt (fun h hw => ?_) fun _ _ => ⟨trivial, trivial⟩
  intro e he
  show (h.files.put x.1 x.2).get e.1 = some e.2
  rw [Bucket.get_put]
  rcases mem_append.mp he with he | he
  · -- The files that were written before have other names.
    rw [if_neg (key_fresh hsplit e he)]
    exact hw e he
  · rw [mem_singleton.mp he, if_pos rfl]

/-- The actions of `Apply`. -/
theorem runActions_triple {P : Bucket String String → Prop} (actions : List Action) :
    Triple (fun h => P h.files) (actions.forM runAction)
      (fun _ h => P h.files ∧ ∀ a ∈ actions, a ∈ h.ran) (fun _ => True) := by
  refine Triple.pre (Triple.forM (I := fun before (h : NetHost) => P h.files ∧ ∀ a ∈ before, a ∈ h.ran)
    fun before x after _ => ?_) fun _ hw => ⟨hw, fun a ha => by cases ha⟩
  have hkeep : ∀ {m : NetProg Unit}, (∀ files ran, Keeps (Frame files ran) m) →
      Triple (fun h => P h.files ∧ ∀ a ∈ before, a ∈ h.ran) m
        (fun _ h => P h.files ∧ ∀ a ∈ before, a ∈ h.ran) (fun _ => True) := fun hm =>
    (keeps_of_frame hm fun files ran => P files ∧ ∀ a ∈ before, a ∈ ran).exit fun _ _ => trivial
  refine Triple.bind (hkeep fun _ _ => .fallible) fun _ => ?_
  refine Triple.bind (hkeep fun _ _ => applyAction_frame x) fun _ => ?_
  refine Triple.update fun h hw => ⟨hw.1, fun a ha => ?_⟩
  show a ∈ h.ran ++ [x]
  rcases mem_append.mp ha with ha | ha
  · exact mem_append_left _ (hw.2 a ha)
  · exact mem_append_right _ ha

/-- The checks return the actions that `Validate` has read. -/
theorem precheck_triple (glob : String → String → Option Bool) (ds : DesiredState) :
    Triple (fun _ => True) (precheck glob ds) (fun actions _ => ds.validate = .ok actions)
      (fun _ => True) := by
  refine Triple.bind (R := fun actions _ => ds.validate = .ok actions)
    (Triple.lift (fun _ _ hok _ => hok) fun _ _ => trivial) fun actions => ?_
  refine Triple.exit (show Triple _ _ _ fun _ => ds.validate = .ok actions from ?_) fun _ _ => trivial
  refine Triple.bind Keeps.fallible fun _ => Triple.bind Keeps.get fun h => Triple.bind Keeps.lift fun _ => ?_
  exact Triple.bind Keeps.lift fun _ => Triple.pure fun _ hok => hok

/-- An apply that returns has written every file and run every action. -/
theorem applyState_triple (glob : String → String → Option Bool) (ds : DesiredState) :
    Triple (fun _ => True) (applyState glob ds) (fun _ => Replayed ds) (fun _ => True) := by
  refine Triple.bind (precheck_triple glob ds) fun actions => ?_
  refine Triple.of_state fun _ hvalid => ?_
  -- The look at the routes changes nothing that matters here.
  refine Triple.bind (R := fun _ _ => True) (Triple.of_forall (fun _ _ => trivial) fun _ => trivial)
    fun _ => ?_
  refine Triple.bind (writeFiles_triple ds.files) fun _ => ?_
  refine (runActions_triple (P := fun files => ∀ e ∈ ds.files.entries, files.get e.1 = some e.2)
    actions).post ?_
  intro _ h hw
  exact ⟨hw.1, actions, hvalid, hw.2⟩

/-- What a rollback makes of the content of a path. -/
def undone (u : Undo) (disk : Bucket String String) (path : String) : Option String :=
  match u.files.get path with
  | some content => content
  | none => disk.get path

/-- A file of the record is as it was. -/
theorem restoreFile_triple {P Q E : NetHost → Prop} (path : String) (content : Option String)
    (hQ : ∀ h files, P h → files.get path = content → (∀ p, p ≠ path → files.get p = h.files.get p) →
      Q { h with files := files })
    (hE : ∀ h files, P h → E { h with files := files }) :
    Triple P (restoreFile path content) (fun _ => Q) E := by
  cases content with
  | none =>
    refine Triple.attempt (fun h hP => hQ h _ hP ?_ fun p hp => ?_) fun h hP => ⟨hE h h.files hP, hE h _ hP⟩
    · rw [Bucket.get_delete, if_pos rfl]
    · rw [Bucket.get_delete, if_neg hp]
  | some =>
    refine Triple.attempt (fun h hP => hQ h _ hP ?_ fun p hp => ?_) fun h hP => ⟨hE h h.files hP, hE h _ hP⟩
    · rw [Bucket.get_put, if_pos rfl]
    · rw [Bucket.get_put, if_neg hp]

/-- The files of a record, put back one by one. -/
theorem restoreFiles_triple (u : Undo) (h0 : NetHost) :
    Triple (fun h => h = h0) (u.files.entries.forM fun e => restoreFile e.1 e.2)
      (fun _ h => h.ran = h0.ran ∧ ∀ path, h.files.get path = undone u h0.files path)
      (fun h => h.ran = h0.ran) := by
  refine (Triple.forM (I := fun before h => h.ran = h0.ran ∧ (∀ e ∈ before, h.files.get e.1 = e.2) ∧
      ∀ path, (∀ e ∈ before, e.1 ≠ path) → h.files.get path = h0.files.get path)
    fun before x after hsplit => ?_).weaken ?_ ?_ fun _ hw => hw
  · refine restoreFile_triple x.1 x.2 ?_ fun _ _ hw => hw.1
    intro h files hw hself hrest
    refine ⟨hw.1, fun e he => ?_, fun path hpath => ?_⟩
    · rcases mem_append.mp he with he | he
      · show files.get e.1 = e.2
        rw [hrest e.1 (key_fresh hsplit e he)]
        exact hw.2.1 e he
      · rw [mem_singleton.mp he]
        exact hself
    · show files.get path = _
      rw [hrest path fun heq => hpath x (mem_append_right _ mem_cons_self) heq.symm]
      exact hw.2.2 path fun e he => hpath e (mem_append_left _ he)
  · intro h hh
    rw [hh]
    exact ⟨rfl, ⟨fun e he => absurd he not_mem_nil, fun _ _ => rfl⟩⟩
  · intro _ h hw
    refine ⟨hw.1, fun path => ?_⟩
    unfold undone
    cases hget : u.files.get path with
    | some content => exact hw.2.1 (path, content) (Bucket.mem_entries.mpr hget)
    | none =>
      -- A path that the record does not have was not touched.
      refine hw.2.2 path fun e he heq => ?_
      have hsome := Bucket.mem_entries.mp (show (e.1, e.2) ∈ u.files.entries from he)
      rw [heq, hget] at hsome
      cases hsome

/-- A rollback runs no action. One that returns has put back the files of its record and touched
no other. -/
theorem rollback_triple (u : Undo) (h0 : NetHost) :
    Triple (fun h => h = h0) (rollback u)
      (fun _ h => h.ran = h0.ran ∧ ∀ path, h.files.get path = undone u h0.files path)
      (fun h => h.ran = h0.ran) := by
  have hran : ∀ h, h = h0 → h.ran = h0.ran := fun h hh => by rw [hh]
  refine Triple.bind (R := fun _ h => h = h0) ?_ fun _ => ?_
  · exact Triple.exit (Keeps.forM fun d _ => .lift) hran
  refine Triple.bind (R := fun _ h => h = h0) (Keeps.lift.exit hran) fun _ => ?_
  refine Triple.bind (restoreFiles_triple u h0) fun _ => ?_
  -- What is left are commands on the runtime state.
  refine (keeps_of_frame (fun files ran => ?_) fun files ran =>
    ran = h0.ran ∧ ∀ path, files.get path = undone u h0.files path).exit fun _ hw => hw.1
  exact .bind (.forM fun d _ => removeRoute_frame d) fun _ => restoreForward_frame _

end Ghostd.Proofs.Netconfig
