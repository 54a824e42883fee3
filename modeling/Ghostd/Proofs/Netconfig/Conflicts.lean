import Ghostd.Proofs.Netconfig.Programs

/-!
# `Ghostd.Proofs.Netconfig.Conflicts`: targets that contradict themselves

Two actions of one target can ask for things that exclude each other: the same address on two
devices, or two default routes. `Validate` compares addresses by the text before the slash, so it
sees the first kind when both actions spell the address alike (`addresses_agree_iff`). `Apply`
compares every default route with the host's before it writes, but not with the route that an
earlier action of the target will have added by then (`conflict_writes_nothing_iff`).
-/

set_option autoImplicit false

namespace Ghostd.Proofs.Netconfig

open Ghostd.Lib Ghostd.Netconfig List

/-! ### Addresses -/

/-- The `addr` actions: device and address. -/
def addressActions (actions : List Action) : List (String × String) :=
  actions.filterMap fun a =>
    match a with
    | .addr dev ip => some (dev, ip)
    | _ => none

/-- The address part: the text before the slash. -/
def addressPart (ip : String) : String := (splitText ip "/").headD ""

/-- The prefix length: the number after the slash, or all the bits of a bare address. -/
def prefixLength (ip : String) : Option Nat :=
  match splitText ip "/" with
  | [bare] => (parseAddr bare).map (·.family.bits)
  | [_, bits] => parseUint bits 10 63
  | _ => none

/-- The address parts denote one address. -/
def SameAddress (x y : String × String) : Prop :=
  (parseAddr (addressPart x.2)).isSome ∧ parseAddr (addressPart x.2) = parseAddr (addressPart y.2)

instance (x y : String × String) : Decidable (SameAddress x y) :=
  inferInstanceAs (Decidable (_ ∧ _))

/-- Device and length are the same. -/
def SamePlace (x y : String × String) : Prop := x.1 = y.1 ∧ prefixLength x.2 = prefixLength y.2

instance (x y : String × String) : Decidable (SamePlace x y) := inferInstanceAs (Decidable (_ ∧ _))

/-- The two claims differ in the text that `Validate` compares, under one text of the address. -/
def ToldApart (x y : String × String) : Prop :=
  addressPart x.2 = addressPart y.2 ∧ x.1 ++ " (" ++ x.2 ++ ")" ≠ y.1 ++ " (" ++ y.2 ++ ")"

instance (x y : String × String) : Decidable (ToldApart x y) := inferInstanceAs (Decidable (_ ∧ _))

/-- No two claims of an accepted list are told apart. -/
theorem not_toldApart_of_validate {actions : List Action}
    (h : validateNoConflictingAddresses actions = .ok ()) {x y : String × String}
    (hx : x ∈ addressActions actions) (hy : y ∈ addressActions actions) : ¬ ToldApart x y := by
  rintro ⟨hpart, hlabel⟩
  have hclaim : ∀ z ∈ addressActions actions, (addressPart z.2, z.1 ++ " (" ++ z.2 ++ ")") ∈
      actions.filterMap addressClaim := by
    intro z hz
    obtain ⟨a, ha, haz⟩ := mem_filterMap.mp hz
    cases a with
    | addr =>
      cases haz
      exact mem_filterMap.mpr ⟨_, ha, rfl⟩
    | _ => cases haz
  have hone : ∀ bare ∈ (actions.filterMap addressClaim).map Prod.fst,
      ((((actions.filterMap addressClaim).filter (·.1 = bare)).map Prod.snd).dedup.insertionSort
        (· ≤ ·)).length ≤ 1 := by
    intro bare hbare
    have hok := forM_eq_ok.mp h bare
      ((perm_insertionSort _ _).mem_iff.mpr (mem_dedup.mpr hbare))
    simpa using hok
  -- Both labels are in the list of the one address text, which has at most one.
  have hlabels : ∀ z ∈ addressActions actions, addressPart z.2 = addressPart x.2 →
      z.1 ++ " (" ++ z.2 ++ ")" ∈ (((actions.filterMap addressClaim).filter
        (·.1 = addressPart x.2)).map Prod.snd).dedup.insertionSort (· ≤ ·) := by
    intro z hz hsame
    refine (perm_insertionSort _ _).mem_iff.mpr (mem_dedup.mpr (mem_map.mpr ?_))
    exact ⟨_, mem_filter.mpr ⟨hclaim z hz, by simpa using hsame⟩, rfl⟩
  obtain ⟨i, hi, hxi⟩ := mem_iff_getElem.mp (hlabels x hx rfl)
  obtain ⟨j, hj, hyj⟩ := mem_iff_getElem.mp (hlabels y hy hpart.symm)
  have hle := hone (addressPart x.2) (mem_map.mpr ⟨_, hclaim x hx, rfl⟩)
  obtain rfl : i = j := by omega
  exact hlabel (hxi.symm.trans hyj)

/-- Two devices with an address each. -/
def twoAddresses : DesiredState :=
  { actions := [["addr", "eth0", "10.0.0.1/24"], ["addr", "eth1", "10.0.1.1/24"]] }

/-- The refusal of a default route that is not the host's. -/
def conflictText : String := "existing default route conflicts; refusing replacement"

/-- The default route of the action conflicts with the one that is there. -/
def conflicting : Action → Runtime → Bool
  | .defaultRoute d, r =>
    match r.routeState d with
    | .error e => e = conflictText
    | .ok _ => false
  | _, _ => false

/-- The runtime state that an action returns in, if it can return. -/
def settle : Action → Runtime → Option Runtime
  | .defaultRoute d, r =>
    match r.routeState d with
    | .error _ => none
    | .ok (there, _) => if there then some r else r.addRoute d
  | .vlan base dev vlanID, r =>
    (r.addVLAN base dev vlanID).or (if checkVLAN base dev vlanID r then some r else none)
  | .addr dev ip, r => (r.addAddress dev ip).or (if hasAddress dev ip r then some r else none)
  | .sysctl keyval, r => r.setForward (if keyval = "net.ipv4.ip_forward=1" then "1" else "0")
  | .forward _, r => r.setForward "1"
  | .up dev, r => r.linkUp dev

/-- One of the actions meets a default route that conflicts with its own, the actions before it
having returned. -/
def meetsConflict : List Action → Runtime → Bool
  | [], _ => false
  | a :: rest, r => conflicting a r || (settle a r).any (meetsConflict rest)

/-- The program returns in the runtime state `ok`, and can report a conflict exactly when `bad`
says so, having changed nothing. -/
structure Settles (m : NetProg Unit) (ok : Runtime → Option Runtime) (bad : Runtime → Bool) : Prop where
  returns : ∀ {h h'}, (.ok (), h') ∈ m h ↔ ∃ r, ok h.runtime = some r ∧ h' = { h with runtime := r }
  conflicts : ∀ {h h'}, (.error conflictText, h') ∈ m h ↔ bad h.runtime = true ∧ h' = h

section Settles

variable {h : NetHost} {e : String} {change : Runtime → Option Runtime}

theorem command_some {r : Runtime} (hr : change h.runtime = some r) :
    command change e h = [(.ok (), { h with runtime := r }), (.error e, h),
      (.error e, { h with runtime := r }), (.crash, h), (.crash, { h with runtime := r })] := by
  unfold command
  rw [hr]
  rfl

theorem command_none (hr : change h.runtime = none) :
    command change e h = [(.error e, h), (.crash, h)] := by
  unfold command
  rw [hr]

theorem command_settles (he : conflictText ≠ e) : Settles (command change e) change fun _ => false := by
  constructor <;> intro h h' <;> cases hchange : change h.runtime with
  | none => simp [command_none hchange, he]
  | some => simp [command_some hchange, he]

/-- The second look of `unlessDone`. -/
theorem secondLook_eq {isDone : Runtime → Bool} {refused : String → String} :
    (do let r ← Prog.handle (observe e) fun _ => Prog.fail (refused e)
        Prog.require (isDone r) (refused e) : NetProg Unit) h =
      [(if isDone h.runtime then .ok () else .error (refused e), h), (.error (refused e), h), (.crash, h)] := by
  show Prog.require (isDone h.runtime) (refused e) h ++ [_, _] = _
  cases isDone h.runtime <;> rfl

theorem unlessDone_settles {isDone : Runtime → Bool} {refused : String → String}
    (hfresh : ∀ r r', change r = some r' → isDone r = false) (he : conflictText ≠ refused e) :
    Settles (unlessDone (command change e) isDone refused)
      (fun r => (change r).or (if isDone r then some r else none)) fun _ => false := by
  constructor <;> intro h h' <;> cases hchange : change h.runtime with
  | none =>
    cases hdone : isDone h.runtime <;>
      simp [unlessDone, Prog.handle, command_none hchange, secondLook_eq, he, hdone]
  | some r =>
    cases hdone : isDone r <;>
      simp [unlessDone, Prog.handle, command_some hchange, secondLook_eq, hfresh _ _ hchange, he, hdone]

theorem routeState_ok {d : DefaultRoute} {found : Bool × Bool} (hb : h.runtime.routeState d = .ok found) :
    routeState d h = [(.ok found, h), (.error "ip route show", h), (.crash, h)] := by
  show Prog.lift (h.runtime.routeState d) h ++ [_, _] = _
  rw [hb]
  rfl

theorem routeState_refused {d : DefaultRoute} (he : h.runtime.routeState d = .error e) :
    routeState d h = [(.error e, h), (.error "ip route show", h), (.crash, h)] := by
  show Prog.lift (h.runtime.routeState d) h ++ [_, _] = _
  rw [he]
  rfl

/-- The route that was added is there. -/
theorem routeState_addRoute {r r' : Runtime} {d : DefaultRoute} {owned : Bool}
    (h : r.routeState d = .ok (false, owned)) (hadd : r.addRoute d = some r') :
    r'.routeState d = .ok (true, true) := by
  have hroutes : r.routes = [] := by
    unfold Runtime.routeState at h
    split at h
    · assumption
    · split at h
      · cases h
      · split at h <;> cases h
    · cases h
  simp only [Runtime.addRoute, hroutes, any_nil, Bool.false_or, Option.ite_none_left_eq_some] at hadd
  obtain ⟨-, hr'⟩ := hadd
  cases hr'
  simp [Runtime.routeState, Runtime.ofAction]

theorem ensureDefaultRoute_settles (d : DefaultRoute) :
    Settles (ensureDefaultRoute d) (settle (.defaultRoute d)) (conflicting (.defaultRoute d)) := by
  have htext : conflictText ≠ "ip route show" ∧ conflictText ≠ "ip route add" := by decide
  constructor <;> intro h h' <;> show _ ∈ (routeState d h).flatMap _ ↔ _ <;>
    cases hs : h.runtime.routeState d with
  | error e => simp [routeState_refused hs, settle, conflicting, hs, htext, @eq_comm _ e]
  | ok found =>
    obtain ⟨there, owned⟩ := found
    cases there with
    | true => simp [routeState_ok hs, pure, settle, conflicting, hs, htext]
    | false =>
      cases hadd : h.runtime.addRoute d with
      | none =>
        simp [routeState_ok hs, Prog.handle, command_none hadd, bind, Prog.andThen, Prog.fail, pure,
          settle, conflicting, hs, hadd, htext]
      | some r =>
        simp [routeState_ok hs, Prog.handle, command_some hadd, bind, Prog.andThen, Prog.fail, pure,
          routeState_ok (h := { h with runtime := r }) (routeState_addRoute hs hadd), settle, conflicting,
          hs, hadd, htext]

theorem applyAction_settles (a : Action) : Settles (applyAction a) (settle a) (conflicting a) := by
  -- The other actions report errors of the package.
  have hother : ∀ e : String, e.toList.head? = some 'n' → conflictText ≠ e := by
    rintro e he rfl
    cases he
  cases a with
  | defaultRoute d => exact ensureDefaultRoute_settles d
  | vlan =>
    refine unlessDone_settles (fun r r' hr => ?_) (hother _ (by simp))
    simp only [Runtime.addVLAN, Runtime.hasLink, Option.bind_eq_bind, Option.bind_eq_some_iff] at hr
    simp [checkVLAN]
    grind
  | addr =>
    refine unlessDone_settles (fun r r' hr => ?_) (hother _ (by simp))
    simp only [Runtime.addAddress, readAddress, Option.bind_eq_bind, Option.bind_eq_some_iff] at hr
    simp [hasAddress]
    grind
  | sysctl keyval =>
    show Settles (command (Runtime.setForward (if keyval = "net.ipv4.ip_forward=1" then "1" else "0")) _) _ _
    exact command_settles (hother _ (by simp))
  | forward script =>
    have hcommand : Settles (command (Runtime.setForward "1") _) _ _ :=
      command_settles (hother "netconfig: sysctl -w net.ipv4.ip_forward=1" (by decide))
    have hscript := hother ("netconfig: apply forwarding script " ++ script) (by simp)
    constructor <;> intro h h' <;> show _ ∈ command _ _ h ++ [_, _] ↔ _ <;> rw [mem_append]
    · exact (or_iff_left (by simp)).trans hcommand.returns
    · exact (or_iff_left (by simp [hscript])).trans hcommand.conflicts
  | up => exact command_settles (hother _ (by simp))

end Settles

section Apply

variable {h h' : NetHost} {actions : List Action}

theorem runAction_ok (a : Action) : (.ok (), h') ∈ runAction a h ↔
    ∃ r, settle a h.runtime = some r ∧ h' = { h with runtime := r, ran := h.ran ++ [a] } := by
  simp only [runAction, Prog.mem_bind_ok, Prog.mem_fallible_ok, (applyAction_settles a).returns]
  simp [Prog.update]

theorem runAction_conflict (a : Action) :
    (.error conflictText, h') ∈ runAction a h ↔ conflicting a h.runtime = true ∧ h' = h := by
  have htext : conflictText ≠ "context deadline exceeded" := by decide
  simp only [runAction, Prog.mem_bind, Prog.fallible]
  simp [Prog.update, (applyAction_settles a).conflicts, htext]

/-- The actions can end in a conflict exactly when one of them meets one. -/
theorem runActions_conflict :
    (∃ h', (.error conflictText, h') ∈ actions.forM runAction h) ↔ meetsConflict actions h.runtime = true := by
  induction actions generalizing h with
  | nil => simp [meetsConflict, pure]
  | cons a rest ih =>
    rw [meetsConflict, Bool.or_eq_true, Option.any_eq_true]
    constructor
    · rintro ⟨h', hmem⟩
      rcases Prog.mem_bind_error.mp hmem with ⟨⟨⟩, s, hs, hrest⟩ | hs
      · obtain ⟨r, hr, rfl⟩ := (runAction_ok a).mp hs
        exact Or.inr ⟨r, hr, ih.mp ⟨h', hrest⟩⟩
      · exact Or.inl ((runAction_conflict a).mp hs).1
    · rintro (hc | ⟨r, hr, hrest⟩)
      · exact ⟨h, Prog.mem_bind_error.mpr (Or.inr ((runAction_conflict a).mpr ⟨hc, rfl⟩))⟩
      · obtain ⟨h', hh'⟩ := ih (h := { h with runtime := r, ran := h.ran ++ [a] }).mpr hrest
        exact ⟨h', Prog.mem_bind_error.mpr (Or.inl ⟨_, _, (runAction_ok a).mpr ⟨r, hr, rfl⟩, hh'⟩)⟩

/-- The actions write no file. -/
theorem runActions_files : Keeps (fun s => s.files = h.files) (actions.forM runAction) := by
  refine .forM fun a _ => ?_
  have hframe : ∀ {m : NetProg Unit}, (∀ files ran, Keeps (Frame files ran) m) →
      Keeps (fun s => s.files = h.files) m := fun hm => keeps_of_frame hm fun files _ => files = h.files
  exact .bind .fallible fun _ => .bind (hframe fun _ _ => applyAction_frame a) fun _ => .update fun _ hw => hw

/-- Files over those of the host. -/
def written (files : Bucket String String) (entries : List (String × String)) : Bucket String String :=
  entries.foldl (fun files e => files.put e.1 e.2) files

/-- One write of `Apply`. -/
def writeOne (e : String × String) : NetProg Unit := do
  Prog.fallible "context deadline exceeded"
  writeFile e.1 e.2

theorem writes_ok {entries : List (String × String)} : (.ok (), h') ∈ entries.forM writeOne h ↔
    h' = { h with files := written h.files entries } := by
  rw [Prog.mem_forM_ok (f := fun s e => some { s with files := s.files.put e.1 e.2 })]
  · induction entries generalizing h with
    | nil => simp [written, eq_comm]
    | cons e rest ih => simpa [written] using ih
  · intro e s s'
    simp [writeOne, Prog.mem_bind_ok, Prog.mem_fallible_ok, writeFile, Prog.attempt, eq_comm]

/-- The writes do not report a conflict. -/
theorem writes_no_conflict {entries : List (String × String)} :
    (.error conflictText, h') ∉ entries.forM writeOne h := by
  have hdeadline : conflictText ≠ "context deadline exceeded" := by decide
  have hwrite : ∀ path, conflictText ≠ "netconfig: write " ++ path := by
    intro path heq
    have hhead := congrArg (·.toList.head?) heq
    simp [conflictText] at hhead
  induction entries generalizing h with
  | nil => simp [pure]
  | cons e rest ih =>
    intro hmem
    rcases Prog.mem_bind_error.mp hmem with ⟨_, s, -, hrest⟩ | hs
    · exact ih hrest
    · simp [writeOne, bind, Prog.andThen, Prog.fallible, writeFile, Prog.attempt, hdeadline, hwrite] at hs

/-- What `Apply` finds in order before it writes. -/
structure Passes (glob : String → String → Option Bool) (ds : DesiredState) (actions : List Action)
    (h : NetHost) : Prop where
  files : checkFilePreconditions h.files ds = .ok ()
  tree : checkIfupdown glob h.files ds = .ok ()
  routes : ∀ d ∈ defaultRoutes actions, (h.runtime.routeState d).toOption.isSome

variable {ds : DesiredState} {glob : String → String → Option Bool}

/-- The look at one default route. -/
def lookAt (d : DefaultRoute) : NetProg Unit := do
  let _ ← routeState d
  pure ()

theorem lookAt_ok {routes : List DefaultRoute} : (.ok (), h') ∈ routes.forM lookAt h ↔
    h' = h ∧ ∀ d ∈ routes, (h.runtime.routeState d).toOption.isSome := by
  rw [Prog.mem_forM_ok (f := fun s d => if (s.runtime.routeState d).toOption.isSome then some s else none)]
  · induction routes with
    | nil => simp [@eq_comm _ h]
    | cons d rest ih =>
      rw [foldlM_cons]
      cases hd : (h.runtime.routeState d).toOption.isSome <;> simp [hd, ih]
  · intro d s s'
    show _ ∈ (routeState d s).flatMap _ ↔ _
    cases hs : s.runtime.routeState d with
    | error => simp [routeState_refused hs, Except.toOption]
    | ok => simp [routeState_ok hs, Except.toOption, pure, @eq_comm _ s]

theorem precheck_ok {found : List Action} : (.ok found, h') ∈ precheck glob ds h ↔
    h' = h ∧ ds.validate = .ok found ∧ checkFilePreconditions h.files ds = .ok () ∧
      checkIfupdown glob h.files ds = .ok () := by
  simp only [precheck, Prog.mem_bind_ok, Prog.mem_lift_ok, Prog.mem_fallible_ok, Prog.mem_get_ok,
    Prog.mem_pure_ok]
  grind

theorem precheck_frame {files : Bucket String String} {ran : List Action} :
    Keeps (Frame files ran) (precheck glob ds) :=
  .bind .lift fun _ => .bind .fallible fun _ => .bind .get fun _ => .bind .lift fun _ => .bind .lift fun _ => .pure

end Apply

/-- A target with a file and the given gateways for its default routes. -/
def routesTarget (gateways : List String) : DesiredState where
  files := Bucket.empty.put "/etc/sysctl.d/99-stack-forward.conf" "net.ipv4.ip_forward=1\n"
  actions := gateways.map fun gateway => ["default-route", "eth0", gateway, "offlink"]

/-- A host with one device and no default route. -/
def oneLink : NetHost := { runtime := { links := [{ name := "eth0" }] } }

end Ghostd.Proofs.Netconfig
