import Ghostd.Proofs.Rpc.Lease
import Ghostd.Rpc.Firewall

/-!
# `Ghostd.Proofs.Rpc.DeadMansSwitch`: the firewall always falls back to what was confirmed

`baseline` is read off the history of saves: it is the table that was live when the last
confirmation was durably saved, and the absent table before any. `Safe` is the invariant of
the firewall host.

* Without a pending lease the live table is the baseline, once a rebooted host recovered.
* A pending lease's snapshot is a dump of the baseline.
* The confirmed bytes are a dump of the baseline, or there are none and the baseline is the
  absent table. Boot restores these, so this is what a reboot comes back to.
* `Fresh`: no lease ends twice.

Every program of the host keeps `Safe` at every point where it can be cut. The lemmas below
say so program by program, `safe_step` collects them for one step, and `deadMansSwitch`
states the result for every run.
-/

set_option autoImplicit false

namespace Ghostd.Proofs.Rpc

open Ghostd.Lib Ghostd.State Ghostd.Rpc

variable {T : Type}
variable {actor : Actor}

/-- The firewall host. -/
abbrev FirewallHost (T : Type) := Host (Kernel T) (Blob T)

variable {h : FirewallHost T}

/-- The table live at the last durably saved confirmation; the absent table before any. -/
def baselineOf : List (Save (Kernel T) (Blob T)) → Option T
  | [] => none
  | e :: rest => if e.actor = .confirm then e.world.live else baselineOf rest

/-- The baseline of a host. -/
def baseline (h : FirewallHost T) : Option T := baselineOf h.saves

theorem baseline_saved_confirm (h : FirewallHost T) (st : DomainState (Blob T)) :
    baseline (h.saved firewall .confirm st) = h.world.live := by
  show baselineOf (_ :: h.saves) = _
  simp [baselineOf]

theorem baseline_saved (hactor : actor ≠ .confirm) (h : FirewallHost T) (st : DomainState (Blob T)) :
    baseline (h.saved firewall actor st) = baseline h := by
  show baselineOf (_ :: h.saves) = baselineOf h.saves
  simp [baselineOf, hactor]

/-- The confirmed bytes denote the baseline. -/
def Confirmed (c : Option (Blob T)) (b : Option T) : Prop :=
  (c = none ∧ b = none) ∨ c = some (.ruleset b)

/-- The invariant of the firewall host. -/
structure Safe (h : FirewallHost T) : Prop where
  fresh : Fresh firewall h
  legacy : h.world.legacyBlob = none
  confirmed : Confirmed (h.domain firewall).confirmed (baseline h)
  snapshot : ∀ p, (h.domain firewall).pending = some p → p.snapshot = some (.ruleset (baseline h))
  idle : (h.domain firewall).pending = none → h.rebooted = false → h.world.live = baseline h
  rebooted : h.rebooted = true → h.world.live = none ∨ h.world.live = baseline h
  serving : h.serving = true → h.rebooted = false

/-! ### What one effect does to the invariant -/

/-- Ending a lease while the live table is the baseline: a rollback that completed, or an
apply withdrawn before its first mutation. -/
theorem Safe.ended (hs : Safe h) (hactor : actor ≠ .confirm) {st : DomainState (Blob T)}
    (hpending : st.pending = none) (hconf : st.confirmed = (h.domain firewall).confirmed)
    (hlive : h.world.live = baseline h) : Safe (h.saved firewall actor st) := by
  have hbase := baseline_saved hactor h st
  refine ⟨hs.fresh.saved_none hpending, hs.legacy, ?_, fun p hp => ?_, fun _ _ => ?_,
    fun _ => Or.inr ?_, hs.serving⟩
  · rw [hbase, Host.domain_saved, hconf]
    exact hs.confirmed
  · rw [Host.domain_saved, hpending] at hp
    exact absurd hp (by simp)
  · rw [hbase]; exact hlive
  · rw [hbase]; exact hlive

/-- Saving a record whose pending lease carries a dump of the baseline: the start of an
apply, and its completion. -/
theorem Safe.leased (hs : Safe h) (hactor : actor ≠ .confirm) {st : DomainState (Blob T)} {p : Pending (Blob T)}
    (hpending : st.pending = some p) (hconf : st.confirmed = (h.domain firewall).confirmed)
    (hsnap : p.snapshot = some (.ruleset (baseline h))) (hissued : p.id ∈ h.issued)
    (hnew : p.id ∉ resolutions h.saves) : Safe (h.saved firewall actor st) := by
  have hbase := baseline_saved hactor h st
  refine ⟨hs.fresh.saved_some hpending hissued hnew, hs.legacy, ?_, fun q hq => ?_,
    fun hnone => ?_, fun hr => ?_, hs.serving⟩
  · rw [hbase, Host.domain_saved, hconf]
    exact hs.confirmed
  · rw [Host.domain_saved, hpending, Option.some.injEq] at hq
    rw [hbase, ← hq]
    exact hsnap
  · rw [Host.domain_saved, hpending] at hnone
    exact absurd hnone (by simp)
  · rw [hbase]; exact hs.rebooted hr

/-- A confirmation makes the live table the baseline. -/
theorem Safe.confirm (hs : Safe h) : Safe (h.saved firewall .confirm
      { confirmed := some (ownedRuleset h.world.live), pending := none }) := by
  have hbase := baseline_saved_confirm h
    { confirmed := some (ownedRuleset h.world.live), pending := none }
  refine ⟨hs.fresh.saved_none rfl, hs.legacy, ?_, fun p hp => ?_, fun _ _ => ?_,
    fun _ => Or.inr ?_, hs.serving⟩
  · rw [hbase, Host.domain_saved]
    exact Or.inr rfl
  · rw [Host.domain_saved] at hp
    exact absurd hp (by simp)
  · rw [hbase]; rfl
  · rw [hbase]; rfl

/-- Putting the baseline back is always safe. -/
theorem Safe.restored (hs : Safe h) : Safe (h.withWorld { h.world with live := baseline h }) :=
  ⟨⟨hs.fresh.nodup, hs.fresh.issued, hs.fresh.pending⟩, hs.legacy, hs.confirmed, hs.snapshot,
    fun _ _ => rfl, fun _ => Or.inr rfl, hs.serving⟩

/-- Under a pending lease the live table can be anything. -/
theorem Safe.mutated (hs : Safe h) (hup : h.serving = true) (hpending : (h.domain firewall).pending ≠ none)
    (t : Option T) : Safe (h.withWorld { h.world with live := t }) := by
  have hboot : h.rebooted = false := hs.serving hup
  refine ⟨⟨hs.fresh.nodup, hs.fresh.issued, hs.fresh.pending⟩, hs.legacy, hs.confirmed,
    hs.snapshot, fun hnone => absurd hnone hpending, fun hr => ?_, hs.serving⟩
  exact absurd (hboot.symm.trans hr) (by simp)

/-- Cancelling or arming a timer touches nothing the invariant reads. -/
theorem Safe.timers (hs : Safe h) (ts : List String) : Safe { h with timers := ts } :=
  ⟨⟨hs.fresh.nodup, hs.fresh.issued, hs.fresh.pending⟩, hs.legacy, hs.confirmed, hs.snapshot,
    hs.idle, hs.rebooted, hs.serving⟩

/-! ### The programs -/

/-- The state of the host while the daemon serves an apply that was given `id`. -/
structure Up (id : String) (h : FirewallHost T) : Prop where
  safe : Safe h
  serving : h.serving = true
  unused : id ∉ h.issued

/-- `Restore` of a dump of the baseline keeps the host safe, whatever it reports, and leaves
the baseline live when it succeeds. -/
theorem restore_triple {b : Blob T} (hs : Safe h) (hb : b = .ruleset (baseline h)) :
    Triple (fun w => w = h.world) (restore (some b)) (fun _ w => w = { h.world with live := baseline h })
      (fun w => Safe (h.withWorld w)) := by
  subst hb
  refine Triple.attempt ?_ ?_
  · rintro w rfl
    rfl
  · rintro w rfl
    exact ⟨hs, hs.restored⟩

/-- A lease that ends with its snapshot put back. -/
theorem Safe.rolledBack (hs : Safe h) :
    Safe ((h.withWorld { h.world with live := baseline h }).saved firewall .recover
      { h.domain firewall with pending := none }) :=
  hs.restored.ended (by decide) rfl rfl rfl

theorem recoverExpired_triple (now : Int) (id : String) :
    Triple (Up (T := T) id) (recoverExpired firewall now)
      (fun _ h => Up id h ∧ (h.domain firewall).pending = none) Safe := by
  refine Triple.of_state fun h hu => recoverExpired_rule hu.safe (fun _ hq => hq.1.safe) (fun hp => ⟨hu, hp⟩)
    fun p b hp hsnap _ => ?_
  -- The snapshot is a dump of the baseline, so the restore puts it back.
  have hb : b = .ruleset (baseline h) := Option.some.inj (hsnap.symm.trans (hu.safe.snapshot p hp))
  refine (restore_triple hu.safe hb).post ?_
  rintro _ w rfl
  exact ⟨hu.safe.restored, ⟨hu.safe.rolledBack, hu.serving, hu.unused⟩, rfl⟩

/-- Reading the live table changes nothing. -/
theorem readRulesetJSON_triple (k0 : Kernel T) :
    Triple (fun k => k = k0) readRulesetJSON (fun live k => k = k0 ∧ live = k0.live)
      (fun k => k = k0) := by
  refine Triple.bind Keeps.fallible fun _ => Triple.bind (R := fun a k => k = k0 ∧ a = k)
    (Triple.get fun k hk => ⟨hk, rfl⟩) fun a => Triple.pure ?_
  rintro k ⟨rfl, rfl⟩
  exact ⟨rfl, rfl⟩

/-- `begin` records a dump of the live table, which is the baseline when no lease is
pending. When it returns, the lease is pending. -/
theorem begin_triple (now timeout : Int) (target : Blob T) (peer id : String) (live : Option T) :
    Triple (fun h => (Up id h ∧ (h.domain firewall).pending = none) ∧ h.world.live = live)
      (begin firewall now timeout target peer id (ownedRuleset live))
      (fun _ h => Safe h ∧ h.serving = true ∧ (h.domain firewall).pending ≠ none) Safe := by
  refine Triple.of_state fun h hh => ?_
  obtain ⟨⟨hu, hnone⟩, rfl⟩ := hh
  have hlive : h.world.live = baseline h := hu.safe.idle hnone (hu.safe.serving hu.serving)
  have hissued : Safe { h with issued := id :: h.issued } :=
    ⟨hu.safe.fresh.issue id, hu.safe.legacy, hu.safe.confirmed, hu.safe.snapshot, hu.safe.idle,
      hu.safe.rebooted, hu.safe.serving⟩
  have hnew : id ∉ resolutions h.saves := fun hres => hu.unused (hu.safe.fresh.issued id hres)
  refine begin_rule hu.safe (fun _ hq => hq.1) (fun _ => hissued) fun s _ hs ts => ?_
  -- The lease is pending and nothing is mutated yet, so that it can still be withdrawn.
  have hbegun : Safe s := by
    rw [hs]
    exact hissued.leased (by decide) rfl rfl (by rw [hlive]; rfl) (List.mem_cons_self ..) hnew
  subst hs
  exact ⟨⟨hbegun.timers ts, hu.serving, Option.some_ne_none _⟩,
    (hbegun.timers ts).ended (by decide) rfl rfl (hlive.trans (baseline_saved (by decide) _ _).symm)⟩

theorem finishApply_triple : Keeps (Safe (T := T)) (finishApply firewall) := by
  refine Triple.of_state fun h hs => finishApply_rule hs fun p hp => ?_
  obtain ⟨hissued, hnew⟩ := hs.fresh.pending p hp
  exact hs.leased (by decide) rfl rfl (hs.snapshot p hp) hissued hnew

/-- A whole apply. -/
theorem applyFirewall_triple (filters : T → Bool) (now : Int) (req : FirewallRequest T)
    (id : String) : Triple (Up id) (applyFirewall filters now req id) (fun _ => Safe) Safe := by
  refine Triple.bind (Keeps.fallible.exit fun _ hu => hu.safe) fun _ => ?_
  refine Triple.bind (recoverExpired_triple now id) fun _ => ?_
  refine Triple.bind (R := fun live h =>
      (Up id h ∧ (h.domain firewall).pending = none) ∧ h.world.live = live) ?_ fun live => ?_
  · refine onWorld_triple fun h hu => (readRulesetJSON_triple h.world).weaken (fun _ hk => hk) ?_ ?_
    · rintro _ _ ⟨rfl, rfl⟩
      exact ⟨hu, rfl⟩
    · rintro _ rfl
      exact hu.1.safe
  refine Triple.bind (Keeps.require.exit fun h hu => hu.1.1.safe) fun _ => ?_
  refine Triple.bind (begin_triple now req.seconds _ req.peer id live) fun _ => ?_
  refine Triple.bind (R := fun _ => Safe) ?_ fun _ => finishApply_triple
  -- The mutation happens under the pending lease.
  refine onWorld_triple fun h hb => Triple.attempt ?_ ?_
  · rintro w rfl
    exact hb.1.mutated hb.2.1 hb.2.2 (some req.script)
  · rintro w rfl
    exact ⟨hb.1, hb.1.mutated hb.2.1 hb.2.2 (some req.script)⟩

theorem confirm_triple (now later : Int) (peer leaseID : String) :
    Keeps (Safe (T := T)) (confirm firewall now later peer leaseID) := by
  refine Triple.of_state fun h hs => confirm_rule hs (fun _ ts hs => hs.timers ts) fun p _ _ _ => ?_
  refine Triple.bind ((readRulesetJSON_triple h.world).exit ?_)
    fun live => Triple.pure ?_
  · rintro w rfl
    exact hs
  · rintro w ⟨rfl, rfl⟩
    exact ⟨hs, hs.confirm⟩

/-- Recovery at boot and in the revert process. Boot ends with no lease pending and the
baseline live, also on a host whose kernel forgot the table. -/
theorem recoverDomain_triple (leaseID : String) :
    Triple (Safe (T := T)) (recoverDomain firewall leaseID)
      (fun _ h => Safe h ∧ (leaseID = "" → h.world.live = baseline h)) Safe := by
  refine Triple.of_state fun h hs => recoverDomain_rule hs (fun _ hq => hq.1)
    (fun hid => ⟨hs, fun hboot => absurd hboot hid⟩) (fun p hp _ => ?_) fun hp _ => ?_
  · rw [hs.snapshot p hp]
    refine (restore_triple hs rfl).post ?_
    rintro _ w rfl
    exact ⟨hs.restored, hs.rolledBack, fun _ => rfl⟩
  · rcases hs.confirmed with ⟨hc, hbase⟩ | hc
    · -- Nothing was ever confirmed: the baseline is the absent table.
      rw [hc]
      refine Triple.pure ?_
      rintro w rfl
      refine ⟨hs, fun _ => ?_⟩
      cases hr : h.rebooted with
      | false => exact hs.idle hp hr
      | true =>
        rcases hs.rebooted hr with hl | hl
        · exact hl.trans hbase.symm
        · exact hl
    · rw [hc]
      refine (restore_triple hs rfl).post ?_
      rintro _ w rfl
      exact ⟨hs.restored, fun _ => rfl⟩

theorem boot_triple : Keeps (Safe (T := T)) (boot firewall (pure ())) := by
  refine Triple.bind (recoverDomain_triple "") fun _ => ?_
  refine Triple.bind (R := fun _ h => Safe h ∧ h.world.live = baseline h) ?_ fun _ => ?_
  · refine onWorld_triple fun h hs => Triple.pure ?_
    rintro w rfl
    exact ⟨hs.1, hs.2 rfl⟩
  · refine Triple.update ?_
    rintro h ⟨hs, hlive⟩
    exact ⟨⟨hs.fresh.nodup, hs.fresh.issued, hs.fresh.pending⟩, hs.legacy, hs.confirmed,
      hs.snapshot, fun _ _ => hlive, fun hr => absurd hr (by simp), fun _ => rfl⟩

/-! ### Steps and runs -/

/-- The daemon going down loses nothing of the firewall. -/
theorem Safe.down (hs : Safe h) : Safe { h with serving := false } :=
  ⟨⟨hs.fresh.nodup, hs.fresh.issued, hs.fresh.pending⟩, hs.legacy, hs.confirmed, hs.snapshot,
    hs.idle, hs.rebooted, fun hup => absurd hup (by simp)⟩

theorem Safe.settle {α : Type} {r : Outcome Status α × FirewallHost T} (hs : Safe r.2) :
    Safe (Host.settle firewall r) := by
  obtain ⟨o, h⟩ := r
  cases o with
  | ok => exact hs
  | error => exact hs
  | crash => exact hs.down

/-- Every step of the host keeps the invariant. -/
theorem safe_step {filters : T → Bool} {h' : FirewallHost T} (hstep : Step filters h h') (hs : Safe h) :
    Safe h' := by
  cases hstep with
  | apply now req id up fresh run =>
    exact ((applyFirewall_triple filters now req id).every_end (fun _ _ hs => hs) ⟨hs, up, fresh⟩ run).settle
  | confirm now later peer leaseID up run =>
    exact ((confirm_triple now later peer leaseID).every_end hs run).settle
  | timer leaseID named armed run =>
    exact (recoverDomain_triple leaseID).every_end (fun _ _ hs => hs.1) hs run
  | boot down run =>
    exact (boot_triple.every_end hs run).settle
  | die => exact hs.down
  | reboot =>
    exact ⟨⟨hs.fresh.nodup, hs.fresh.issued, hs.fresh.pending⟩, hs.legacy, hs.confirmed,
      hs.snapshot, fun _ hr => absurd hr (by simp), fun _ => Or.inl rfl,
      fun hup => absurd hup (by simp)⟩

theorem safe_freshHost : Safe (freshHost (T := T)) :=
  ⟨⟨List.nodup_nil, fun _ h => absurd h (by simp [resolutions, freshHost]),
    fun _ h => absurd h (by simp [Host.domain, freshHost])⟩, rfl, Or.inl ⟨rfl, rfl⟩,
    fun _ h => absurd h (by simp [Host.domain, freshHost]), fun _ _ => rfl,
    fun h => absurd h (by simp [freshHost]), fun _ => rfl⟩

/-- Every reachable host is safe. -/
theorem Safe.of_reachable {filters : T → Bool} (hr : Reachable filters h) : Safe h :=
  invariant_of_run safe_freshHost (fun _ _ hstep hs => safe_step hstep hs) hr

/-- The dead-man's switch. In every run: without a pending lease the live table is the
baseline, except between a reboot and the recovery of boot; a pending lease's snapshot
denotes the baseline; no lease is resolved twice. -/
theorem deadMansSwitch (filters : T → Bool) (h : FirewallHost T) (hr : Reachable filters h) :
    ((h.domain firewall).pending = none → h.rebooted = false → h.world.live = baseline h) ∧
    (∀ p, (h.domain firewall).pending = some p → p.snapshot = some (.ruleset (baseline h))) ∧
    (resolutions h.saves).Nodup :=
  let hs := Safe.of_reachable hr
  ⟨hs.idle, hs.snapshot, hs.fresh.nodup⟩

/-- A table that is loaded as it is, for a caller `a`. -/
def plainRequest (table : Nat) : FirewallRequest Nat :=
  { json := "", script := table, redirectOnly := false, seconds := 30, peer := "a" }

/-- The hosts of a run without a failure: boot, apply and confirm table `7`, then apply
table `8`. -/
def bootedHost : FirewallHost Nat :=
  Host.settle firewall (Prog.path (boot firewall (pure ())) 0 freshHost)

@[inherit_doc bootedHost]
def firstApply : FirewallHost Nat :=
  Host.settle firewall
    (Prog.path (applyFirewall (fun _ => false) 0 (plainRequest 7) "l1") 0 bootedHost)

@[inherit_doc bootedHost]
def firstConfirm : FirewallHost Nat :=
  Host.settle firewall (Prog.path (confirm firewall 1 1 "b" "l1") 0 firstApply)

@[inherit_doc bootedHost]
def secondApply : FirewallHost Nat :=
  Host.settle firewall
    (Prog.path (applyFirewall (fun _ => false) 2 (plainRequest 8) "l2") 0 firstConfirm)

theorem secondApply_reachable : Reachable (fun _ => false) secondApply := by
  have h1 : Step (fun _ => false) freshHost bootedHost :=
    Step.boot rfl (Prog.path_mem (by decide))
  have h2 : Step (fun _ => false) bootedHost firstApply :=
    Step.apply 0 _ "l1" rfl (by decide) (Prog.path_mem (by decide))
  have h3 : Step (fun _ => false) firstApply firstConfirm :=
    Step.confirm 1 1 "b" "l1" rfl (Prog.path_mem (by decide))
  have h4 : Step (fun _ => false) firstConfirm secondApply :=
    Step.apply 2 _ "l2" rfl (by decide) (Prog.path_mem (by decide))
  exact (((Relation.ReflTransGen.single h1).tail h2).tail h3).tail h4

/-- The second lease's snapshot is the first table, which was confirmed. -/
theorem deadMansSwitch_secondApply :
    (∃ p, (secondApply.domain firewall).pending = some p ∧
      p.snapshot = some (.ruleset (some 7))) ∧ (resolutions secondApply.saves).Nodup := by
  obtain ⟨-, hsnap, hnodup⟩ := deadMansSwitch _ secondApply secondApply_reachable
  exact ⟨⟨_, rfl, hsnap _ rfl⟩, hnodup⟩

end Ghostd.Proofs.Rpc
