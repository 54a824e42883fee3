import Ghostd.Proofs.Netconfig.Programs
import Ghostd.Proofs.Rpc.DeadMansSwitch
import Ghostd.Proofs.Rpc.Rollback
import Ghostd.Rpc.Netconfig

/-!
# `Ghostd.Proofs.Rpc.Boot`: what boot brings back

`recoverDomain` has two branches (`recoverDomain_ok`). Without a pending lease it replays the
confirmed bytes. With one it restores the lease's snapshot and does not look at what is confirmed.
So boot ends in the confirmed state when the snapshot stands for it.

For the firewall it does, in every run: the snapshot is a dump of the table that was confirmed.
For the two configuration domains it does in the runs of `snapshotsDenote_of_calm`. For the network
it does not. An undo record has the files that the pending apply could overwrite, and no actions,
and after a reboot nothing of the confirmed target has been run. `boot_restores` is the result.
-/

set_option autoImplicit false

namespace Ghostd.Proofs.Rpc

open Ghostd.Lib Ghostd.State Ghostd.Rpc Ghostd.Netconfig Ghostd.Proofs.Netconfig

variable {h : Host NetHost NetBlob}

/-! ### The two branches -/

/-- What `recoverDomain` at boot leaves when it returns. -/
theorem recoverDomain_ok {L B : Type} {d : Domain L B} {h h' : Host L B}
    (hr : (Outcome.ok (), h') ∈ recoverDomain d "" h) :
    (∃ p w, (h.domain d).pending = some p ∧ (Outcome.ok (), w) ∈ d.recover p.snapshot h.world ∧
      h' = (h.withWorld w).saved d .recover { h.domain d with pending := none }) ∨
    ((h.domain d).pending = none ∧ ∃ w, (Outcome.ok (), w) ∈ d.recover (h.domain d).confirmed h.world ∧
      h' = h.withWorld w) := by
  have hspec : Triple (fun s => s = h) (recoverDomain d "")
      (fun _ h' =>
        (∃ p w, (h.domain d).pending = some p ∧ (Outcome.ok (), w) ∈ d.recover p.snapshot h.world ∧
          h' = (h.withWorld w).saved d .recover { h.domain d with pending := none }) ∨
        ((h.domain d).pending = none ∧ ∃ w,
          (Outcome.ok (), w) ∈ d.recover (h.domain d).confirmed h.world ∧ h' = h.withWorld w))
      (fun _ => True) := by
    refine recoverDomain_rule trivial (fun _ _ => trivial) (fun hid => absurd rfl hid) (fun p hp _ => ?_)
      fun hp _ => ?_
    · exact Triple.self.weaken (fun _ hw => hw) (fun _ w hw => ⟨trivial, Or.inl ⟨p, w, hp, hw, rfl⟩⟩)
        fun _ _ => trivial
    · exact Triple.self.weaken (fun _ hw => hw) (fun _ w hw => Or.inr ⟨hp, w, hw, rfl⟩) fun _ _ => trivial
  exact hspec h rfl _ hr

/-! ### The firewall -/

/-- Boot ends with the confirmed table. -/
theorem firewall_restored {T : Type} {filters : T → Bool} {h h' : FirewallHost T}
    (hreach : Reachable filters h) (hr : (Outcome.ok (), h') ∈ recoverDomain firewall "" h)
    {b : Blob T} (hb : (h.domain firewall).confirmed = some b) : h'.world.live = b.table := by
  have hs := Safe.of_reachable hreach
  have hconfirmed : b = .ruleset (baseline h) := by
    rcases hs.confirmed with ⟨hnone, -⟩ | hsome
    · rw [hb] at hnone
      cases hnone
    · rw [hb] at hsome
      exact Option.some.inj hsome
  -- A restore of these bytes that returns has loaded the table.
  have hloaded : ∀ w, (Outcome.ok (), w) ∈ restore (some (.ruleset (baseline h))) h.world →
      w.live = baseline h := by
    have htriple : Triple (fun k => k = h.world) (restore (some (.ruleset (baseline h))))
        (fun _ w => w.live = baseline h) (fun _ => True) :=
      Triple.attempt (fun _ _ => rfl) fun _ _ => ⟨trivial, trivial⟩
    exact fun w hw => htriple h.world rfl _ hw
  rw [hconfirmed]
  rcases recoverDomain_ok hr with ⟨p, w, hp, hw, rfl⟩ | ⟨-, w, hw, rfl⟩
  · rw [hs.snapshot p hp] at hw
    exact hloaded w hw
  · rw [hb, hconfirmed] at hw
    exact hloaded w hw

/-! ### The configuration domains -/

/-- Boot ends with the confirmed configuration in the file. -/
theorem config_restored {R C : Type} [DecidableEq R] [DecidableEq C] {k : Kind} {codec : Codec R C}
    {file : Option R} (hfile : (codec.parseConfig file).isSome) {h h' : ConfigHost R C}
    (hrun : Relation.ReflTransGen (ConfigStep k codec (CalmApply k codec)) (configHost codec file) h)
    (hr : (Outcome.ok (), h') ∈ recoverDomain (k.domain codec) "" h) :
    codec.parseConfig h'.world.file = codec.parseConfig (h.domain (k.domain codec)).confirmed := by
  obtain ⟨B0, hB0⟩ := Option.isSome_iff_exists.mp hfile
  obtain ⟨B, hh⟩ := invariant_of_run (sound_configHost (k := k) hB0)
    (fun _ _ hstep hs => sound_step hstep hs) hrun
  -- A restore that returns has written bytes for what it was given.
  have hwritten : ∀ raw w, codec.parseConfig raw = some B →
      (Outcome.ok (), w) ∈ restoreConfigFile k codec raw h.world → codec.parseConfig w.file = some B := by
    intro raw w hraw hw
    have hpost := restoreConfigFile_triple (k := k) hraw h.world h.world rfl _ hw
    simp only at hpost
    rw [hpost]
    exact (parseConfig_getD_blank raw).trans hraw
  rw [hh.confirmed]
  rcases recoverDomain_ok hr with ⟨p, w, hp, hw, rfl⟩ | ⟨-, w, hw, rfl⟩
  · have hsnap := hh.snapshot p hp
    cases hs : p.snapshot with
    | none =>
      rw [hs] at hsnap
      cases hsnap
    | some b =>
      rw [hs] at hsnap hw
      exact hwritten (some b) w hsnap hw
  · exact hwritten _ w hh.confirmed hw

/-! ### The network -/

/-- The bytes of a network record have the form that their place asks for. -/
structure Typed (st : DomainState NetBlob) : Prop where
  confirmed : ∀ b, st.confirmed = some b → ∃ ds, b = .target ds
  snapshot : ∀ p, st.pending = some p → ∃ u, p.snapshot = some (.undo u)
  target : ∀ p, st.pending = some p → ∃ ds, p.target = .target ds

section Network

variable {glob : String → String → Option Bool}

theorem Typed.ended {st : DomainState NetBlob} (hst : Typed st) : Typed { st with pending := none } :=
  ⟨hst.confirmed, fun _ hp => (by cases hp), fun _ hp => by cases hp⟩

theorem recordable_typed : Recordable (netconfig glob) Typed where
  legacy w := by
    refine ⟨fun b hb => ?_, fun _ hp => (by cases hp), fun _ hp => by cases hp⟩
    obtain ⟨ds, -, hds⟩ := Option.map_eq_some_iff.mp hb
    exact ⟨ds, hds.symm⟩
  ended _ hst := hst.ended
  applied st p hst hp := by
    refine ⟨hst.confirmed, fun q hq => ?_, fun q hq => ?_⟩
    · rw [← Option.some.inj hq]
      exact hst.snapshot p hp
    · rw [← Option.some.inj hq]
      exact hst.target p hp
  confirmed st p b w w' hst hp hb := by
    refine ⟨fun c hc => ?_, fun _ hp => (by cases hp), fun _ hp => by cases hp⟩
    -- `Confirm` records the target of the lease.
    obtain ⟨hb, -⟩ := Prod.mk.inj (List.mem_singleton.mp hb)
    rw [← Option.some.inj hc, Outcome.ok.inj hb]
    exact hst.target p hp

/-- The records are typed, a host that serves has come up, and after a reboot no action has been
run while a lease is pending. -/
structure Lost (h : Host NetHost NetBlob) : Prop where
  typed : ∀ st, h.record = some st → Typed st
  serving : h.serving = true → h.rebooted = false
  idle : h.rebooted = true → ∀ st, h.record = some st → st.pending ≠ none → h.world.ran = []

theorem Lost.domain (hh : Lost h) : Typed (h.domain (netconfig glob)) := by
  have hrecorded : Recorded Typed h.serving h.rebooted h := ⟨hh.typed, rfl, rfl⟩
  exact hrecorded.domain recordable_typed

/-- What a host that serves runs leaves no reboot behind. -/
theorem Lost.of_recorded {up : Bool} (hh : Recorded Typed up false h) : Lost h :=
  ⟨hh.record, fun _ => hh.rebooted, fun hlost => by rw [hh.rebooted] at hlost; cases hlost⟩

theorem Lost.settle {α : Type} {r : Outcome Status α × Host NetHost NetBlob} (hh : Lost r.2) :
    Lost (Host.settle (netconfig glob) r) := by
  obtain ⟨o, h⟩ := r
  cases o with
  | ok => exact hh
  | error => exact hh
  | crash => exact ⟨hh.typed, fun hup => (by cases hup), hh.idle⟩

/-- A record that is saved without a lease. -/
theorem Lost.ended (hh : Lost h) {st : DomainState NetBlob} (hst : Typed st) :
    Lost (h.saved (netconfig glob) .recover { st with pending := none }) := by
  refine ⟨fun st' hrec => ?_, hh.serving, fun _ st' hrec hp => ?_⟩
  · rw [← Option.some.inj hrec]
    exact hst.ended
  · rw [← Option.some.inj hrec] at hp
    exact absurd rfl hp

/-- Other files and another runtime state, the same actions. -/
theorem Lost.withWorld (hh : Lost h) {w : NetHost}
    (hw : h.rebooted = true → ∀ st, h.record = some st → st.pending ≠ none → w.ran = []) :
    Lost (h.withWorld w) :=
  ⟨hh.typed, hh.serving, hw⟩

/-- A recovery with a lease rolls back and runs no action; one without may run some. -/
theorem recoverDomain_lost (leaseID : String) : Keeps Lost (recoverDomain (netconfig glob) leaseID) := by
  refine Triple.of_state fun h hh => ?_
  have htyped : Typed (h.domain (netconfig glob)) := hh.domain
  refine recoverDomain_rule hh (fun _ hs => hs) (fun _ => hh) (fun p hp _ => ?_) fun hp _ => ?_
  · obtain ⟨u, hu⟩ := htyped.snapshot p hp
    rw [hu]
    have hkeep : ∀ w : NetHost, w.ran = h.world.ran → Lost (h.withWorld w) := fun w hw =>
      hh.withWorld fun hlost st' hrec hne => by rw [hw]; exact hh.idle hlost st' hrec hne
    exact Triple.handle ((rollback_triple u h.world).weaken (fun _ hw => hw)
      (fun _ w hw => ⟨hkeep w hw.1, (hkeep w hw.1).ended htyped⟩) hkeep)
      (fun e => Triple.fail fun _ hw => hw) fun _ hw => hw
  · have hkeep : ∀ w : NetHost, Lost (h.withWorld w) := by
      intro w
      refine hh.withWorld fun _ st' hrec hne => absurd ?_ hne
      have hdomain : h.domain (netconfig glob) = st' := by
        unfold Host.domain
        rw [hrec, Option.getD_some]
      rw [← hdomain]
      exact hp
    exact Triple.of_forall (fun _ => hkeep) hkeep

theorem applyNetconfig_recorded (now : Int) (req : NetRequest) (id : String) {up lost : Bool} :
    Keeps (Recorded Typed up lost) (applyNetconfig glob now req id) := by
  refine .bind .fallible fun _ => .bind (onWorld_recorded _) fun _ => ?_
  refine .bind (recoverExpired_recorded recordable_typed now) fun _ => .bind (onWorld_recorded _) fun u => ?_
  refine .bind (begin_recorded recordable_typed now req.seconds _ req.peer id _ fun st hst => ?_) fun _ => ?_
  · refine ⟨hst.confirmed, fun p hp => ?_, fun p hp => ?_⟩
    · rw [← Option.some.inj hp]
      exact ⟨u, rfl⟩
    · rw [← Option.some.inj hp]
      exact ⟨req.desired, rfl⟩
  exact .bind (onWorld_recorded _) fun _ => finishApply_recorded recordable_typed

theorem lost_step {h' : Host NetHost NetBlob} (hstep : NetStep glob h h') (hh : Lost h) : Lost h' := by
  cases hstep with
  | apply now req id up fresh run =>
    have hend := (applyNetconfig_recorded now req id).every_end ⟨hh.typed, up, hh.serving up⟩ run
    exact (Lost.of_recorded hend).settle
  | confirm now later peer leaseID up run =>
    have hend := (confirm_recorded recordable_typed now later peer leaseID).every_end
      ⟨hh.typed, up, hh.serving up⟩ run
    exact (Lost.of_recorded hend).settle
  | timer leaseID named armed run => exact (recoverDomain_lost leaseID).every_end hh run
  | boot down run =>
    have hboot : Keeps Lost (boot (netconfig glob) (pure ())) := by
      refine .bind (recoverDomain_lost "") fun _ => .bind (onWorld_triple fun s hs => ?_) fun _ => ?_
      · exact Triple.pure fun w hw => by rw [hw]; exact hs
      · exact .update fun _ hw => ⟨hw.typed, fun _ => rfl, fun hlost => by cases hlost⟩
    exact Lost.settle (hboot.every_end hh run)
  | die => exact ⟨hh.typed, fun hup => (by cases hup), hh.idle⟩
  | reboot => exact ⟨hh.typed, fun hup => (by cases hup), fun _ _ _ _ => rfl⟩

theorem lost_of_run {w0 : NetHost} (hrun : Relation.ReflTransGen (NetStep glob) (netHost w0) h) : Lost h :=
  invariant_of_run ⟨fun _ hrec => (by cases hrec), fun hup => (by cases hup), fun hlost => by cases hlost⟩
    (fun _ _ hstep hh => lost_step hstep hh) hrun

/-- An error that got a code is no return. -/
theorem ok_of_asStatus {α : Type} {code : Code} {lead : String} {m : NetProg α} {a : α} {w w' : NetHost}
    (hr : (Outcome.ok a, w') ∈ asStatus code lead m w) : (Outcome.ok a, w') ∈ m w := by
  rcases Prog.mem_handle.mp hr with ⟨b, v, hmem, heq⟩ | ⟨e, v, -, heq⟩ | ⟨v, -, heq⟩
  · cases heq
    exact hmem
  · cases List.mem_singleton.mp heq
  · cases heq

/-- A boot after a reboot has replayed the confirmed target if no lease was pending. If one was,
it has put back the lease's files and run nothing. -/
theorem netconfig_restored {w0 : NetHost} {h' : Host NetHost NetBlob}
    (hrun : Relation.ReflTransGen (NetStep glob) (netHost w0) h) (hlost : h.rebooted = true)
    (hr : (Outcome.ok (), h') ∈ recoverDomain (netconfig glob) "" h) {ds : DesiredState}
    (hds : (h.domain (netconfig glob)).confirmed = some (.target ds)) : Replayed ds h'.world ↔
      (h.domain (netconfig glob)).pending = none ∨
        ∃ p u, (h.domain (netconfig glob)).pending = some p ∧ p.snapshot = some (.undo u) ∧
          ds.validate = .ok [] ∧ ∀ e ∈ ds.files.entries, undone u h.world.files e.1 = some e.2 := by
  have hh := lost_of_run hrun
  have htyped : Typed (h.domain (netconfig glob)) := hh.domain
  rcases recoverDomain_ok hr with ⟨p, w, hp, hw, rfl⟩ | ⟨hp, w, hw, rfl⟩
  · obtain ⟨u, hu⟩ := htyped.snapshot p hp
    rw [hu] at hw
    obtain ⟨hran, hfiles⟩ := rollback_triple u h.world h.world rfl _ (ok_of_asStatus hw)
    have hidle : h.world.ran = [] := by
      cases hrec : h.record with
      | none =>
        unfold Host.domain at hp
        rw [hrec] at hp
        cases hp
      | some st =>
        refine hh.idle hlost st hrec ?_
        unfold Host.domain at hp
        rw [hrec, Option.getD_some] at hp
        rw [hp]
        exact Option.some_ne_none p
    rw [hidle] at hran
    constructor
    · rintro ⟨hsame, actions, hvalid, hall⟩
      have hnil : actions = [] := by
        refine List.eq_nil_iff_forall_not_mem.mpr fun a ha => ?_
        have hmem : a ∈ w.ran := hall a ha
        rw [hran] at hmem
        cases hmem
      refine Or.inr ⟨p, u, hp, hu, by rw [hvalid, hnil], fun e he => ?_⟩
      rw [← hfiles]
      exact hsame e he
    · rintro (hnone | ⟨q, v, hq, hv, hvalid, hsame⟩)
      · rw [hp] at hnone
        cases hnone
      rw [hp] at hq
      rw [← Option.some.inj hq, hu] at hv
      obtain rfl : u = v := NetBlob.undo.inj (Option.some.inj hv)
      refine ⟨fun e he => ?_, [], hvalid, fun a ha => by cases ha⟩
      exact (hfiles e.1).trans (hsame e he)
  · rw [hds] at hw
    have hreplayed := applyState_triple glob ds h.world trivial _ (ok_of_asStatus hw)
    exact iff_of_true hreplayed (Or.inl hp)

end Network

/-! ### Boot -/

/-- What a boot that returns has restored. The firewall's table is the confirmed one after every
run. The configuration file holds the confirmed configuration after every run whose applies found
the manager running what its file says. After a reboot the confirmed network target has been
replayed exactly when no lease was pending, or when it has no action and the rollback of the lease
left its files in place. -/
theorem boot_restores {T R C : Type} (filters : T → Bool) [DecidableEq R] [DecidableEq C] (k : Kind)
    (codec : Codec R C) (glob : String → String → Option Bool) :
    (∀ h h' : FirewallHost T, Reachable filters h →
      (Outcome.ok (), h') ∈ recoverDomain firewall "" h →
      ∀ b, (h.domain firewall).confirmed = some b → h'.world.live = b.table) ∧
    (∀ (file : Option R) (h h' : ConfigHost R C), (codec.parseConfig file).isSome →
      Relation.ReflTransGen (ConfigStep k codec (CalmApply k codec)) (configHost codec file) h →
      (Outcome.ok (), h') ∈ recoverDomain (k.domain codec) "" h →
      codec.parseConfig h'.world.file = codec.parseConfig (h.domain (k.domain codec)).confirmed) ∧
    (∀ (w₀ : NetHost) (h h' : Host NetHost NetBlob),
      Relation.ReflTransGen (NetStep glob) (netHost w₀) h → h.rebooted = true →
      (Outcome.ok (), h') ∈ recoverDomain (netconfig glob) "" h →
      ∀ ds, (h.domain (netconfig glob)).confirmed = some (.target ds) →
        (Replayed ds h'.world ↔
          (h.domain (netconfig glob)).pending = none ∨
            ∃ p u, (h.domain (netconfig glob)).pending = some p ∧ p.snapshot = some (.undo u) ∧
              ds.validate = .ok [] ∧
              ∀ e ∈ ds.files.entries, undone u h.world.files e.1 = some e.2)) := by
  refine ⟨?_, ?_, ?_⟩
  · intro h h' hreach hr b hb
    exact firewall_restored hreach hr hb
  · intro file h h' hfile hrun hr
    exact config_restored hfile hrun hr
  · intro w₀ h h' hrun hlost hr ds hds
    exact netconfig_restored hrun hlost hr hds

/-- No pattern of the interfaces file matches. -/
def noGlob : String → String → Option Bool := fun _ _ => some false

/-- A machine with one device. -/
def oneDevice : Runtime := { links := [{ name := "eth0" }] }

/-- The target that brings the device up. -/
def upTarget : DesiredState where
  expectedFilesSHA256 := .empty
  files := .empty
  actions := [["up", "eth0"]]

/-- The target that turns forwarding on. -/
def forwardTarget : DesiredState where
  expectedFilesSHA256 := .empty
  files := .empty
  actions := [["sysctl", "net.ipv4.ip_forward=1"]]

/-- The hosts of a run without a failure: boot, apply and confirm `upTarget`, then apply
`forwardTarget`. -/
def netBooted : Host NetHost NetBlob :=
  Host.settle (netconfig noGlob)
    (Prog.path (boot (netconfig noGlob) (pure ())) 0 (netHost { runtime := oneDevice }))

@[inherit_doc netBooted]
def netApplied : Host NetHost NetBlob :=
  Host.settle (netconfig noGlob) (Prog.path (applyNetconfig noGlob 0 ⟨upTarget, 60, "a"⟩ "l1") 0 netBooted)

@[inherit_doc netBooted]
def netConfirmed : Host NetHost NetBlob :=
  Host.settle (netconfig noGlob) (Prog.path (confirm (netconfig noGlob) 1 1 "b" "l1") 0 netApplied)

@[inherit_doc netBooted]
def netLeased : Host NetHost NetBlob :=
  Host.settle (netconfig noGlob)
    (Prog.path (applyNetconfig noGlob 2 ⟨forwardTarget, 60, "a"⟩ "l2") 0 netConfirmed)

/-- The boot after a reboot of such a host. -/
def netRecovered (h : Host NetHost NetBlob) : Host NetHost NetBlob :=
  (Prog.path (recoverDomain (netconfig noGlob) "") 0 (rebootNet oneDevice h)).2

theorem netConfirmed_reachable :
    Relation.ReflTransGen (NetStep noGlob) (netHost { runtime := oneDevice }) netConfirmed := by
  have h1 : NetStep noGlob (netHost { runtime := oneDevice }) netBooted :=
    NetStep.boot rfl (Prog.path_mem (by decide +kernel))
  have h2 : NetStep noGlob netBooted netApplied :=
    NetStep.apply 0 _ "l1" rfl (by decide +kernel) (Prog.path_mem (by decide +kernel))
  have h3 : NetStep noGlob netApplied netConfirmed :=
    NetStep.confirm 1 1 "b" "l1" (by decide +kernel) (Prog.path_mem (by decide +kernel))
  exact ((Relation.ReflTransGen.single h1).tail h2).tail h3

theorem netLeased_reachable :
    Relation.ReflTransGen (NetStep noGlob) (netHost { runtime := oneDevice }) netLeased :=
  netConfirmed_reachable.tail
    (NetStep.apply 2 _ "l2" (by decide +kernel) (by decide +kernel) (Prog.path_mem (by decide +kernel)))

/-- The first of these recoveries. -/
theorem netRecovered_mem
    (hok : ((recoverDomain (netconfig noGlob) "" (rebootNet oneDevice h))[0]?).isSome = true)
    (hret : (Prog.path (recoverDomain (netconfig noGlob) "") 0 (rebootNet oneDevice h)).1 = .ok ()) :
    (Outcome.ok (), netRecovered h) ∈ recoverDomain (netconfig noGlob) "" (rebootNet oneDevice h) := by
  have hmem := Prog.path_mem hok
  rw [show Prog.path (recoverDomain (netconfig noGlob) "") 0 (rebootNet oneDevice h)
    = (Outcome.ok (), netRecovered h) from Prod.ext hret rfl] at hmem
  exact hmem

/-- A reboot after the confirmation: the device is brought up again. -/
theorem boot_restores_netConfirmed :
    ((rebootNet oneDevice netConfirmed).domain (netconfig noGlob)).confirmed = some (.target upTarget) ∧
      Replayed upTarget (netRecovered netConfirmed).world := by
  have hconfirmed :
      ((rebootNet oneDevice netConfirmed).domain (netconfig noGlob)).confirmed = some (.target upTarget) := rfl
  have hnetwork := (boot_restores (T := Unit) (fun _ => true) .dhcp plainCodec noGlob).2.2
  refine ⟨hconfirmed, (hnetwork _ (rebootNet oneDevice netConfirmed) _
    (netConfirmed_reachable.tail (NetStep.reboot oneDevice)) rfl
    (netRecovered_mem (by decide +kernel) (by decide +kernel)) upTarget hconfirmed).mpr (Or.inl rfl)⟩

/-- A reboot while the second lease is pending. Boot rolls that lease back and returns. The device
of the confirmed target is down, and no action has been run. -/
theorem confirmed_target_not_replayed :
    Relation.ReflTransGen (NetStep noGlob) (netHost { runtime := oneDevice })
        (rebootNet oneDevice netLeased) ∧
      (Outcome.ok (), netRecovered netLeased)
        ∈ recoverDomain (netconfig noGlob) "" (rebootNet oneDevice netLeased) ∧
      ((rebootNet oneDevice netLeased).domain (netconfig noGlob)).confirmed = some (.target upTarget) ∧
      (netRecovered netLeased).world.runtime.links = [{ name := "eth0" }] ∧
      ¬ Replayed upTarget (netRecovered netLeased).world := by
  refine ⟨netLeased_reachable.tail (NetStep.reboot oneDevice),
    netRecovered_mem (by decide +kernel) (by decide +kernel), rfl, by decide +kernel, ?_⟩
  rintro ⟨-, actions, hvalid, hall⟩
  have hactions : upTarget.validate = .ok [.up "eth0"] := by decide +kernel
  rw [hactions] at hvalid
  have hran : (netRecovered netLeased).world.ran = [] := by decide +kernel
  have hmem := hall (.up "eth0") (by rw [← Except.ok.inj hvalid]; exact List.mem_cons_self)
  rw [hran] at hmem
  cases hmem

end Ghostd.Proofs.Rpc
