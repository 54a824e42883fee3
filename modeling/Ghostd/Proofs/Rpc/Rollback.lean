import Ghostd.Proofs.Rpc.Lease
import Ghostd.Rpc.ConfigDomain

/-!
# `Ghostd.Proofs.Rpc.Rollback`: what the configuration domains roll back to

`inForce` is read off the history of saves: the configuration of the last confirmation, and
of the initial file before any. `SnapshotsDenote` says that every pending lease ever recorded
carries a snapshot of the configuration that was in force then.

The program does not keep this. `applyConfig` takes its snapshot from the running manager,
and the revert process clears the lease without touching the manager. Until the watcher ran,
the manager still runs the target of the lease that was just rolled back, and a new apply
records that target as what to go back to (`snapshot_of_rolledBackTarget`).

It does keep it when the manager runs what the file says at every apply that finds no lease
pending (`Converged`). The invariant is `Held`: without a pending lease the file denotes the
configuration in force; the confirmed bytes and a pending snapshot always do; and while a
lease can still be confirmed, the file denotes its target.
-/

set_option autoImplicit false

namespace Ghostd.Proofs.Rpc

open Ghostd.Lib Ghostd.State Ghostd.Rpc

variable {R C : Type}

/-- A host of a configuration domain. -/
abbrev ConfigHost (R C : Type) := Host (Managed R C) R

/-- The configuration in force: the last confirmed one, or the one of the initial file. -/
def inForce (codec : Codec R C) (file : Option R) : List (Save (Managed R C) R) → Option C
  | [] => codec.parseConfig file
  | e :: rest =>
    if e.actor = .confirm then codec.parseConfig e.after.confirmed else inForce codec file rest

/-- Every snapshot ever recorded denotes the configuration that was in force. -/
def SnapshotsDenote (codec : Codec R C) (file : Option R) :
    List (Save (Managed R C) R) → Prop
  | [] => True
  | e :: rest =>
    (∀ p, e.after.pending = some p →
      ∃ c, p.snapshot.bind codec.parse = some c ∧ inForce codec file rest = some c) ∧
    SnapshotsDenote codec file rest

/-- The manager runs what the file says. -/
def Converged (codec : Codec R C) (h : ConfigHost R C) : Prop :=
  codec.parseConfig h.world.file = some h.world.config

/-- An apply that will take its snapshot without recovering a lease first finds the manager
converged. -/
def CalmApply (k : Kind) (codec : Codec R C) (h : ConfigHost R C) : Prop :=
  (h.domain (k.domain codec)).pending = none → Converged codec h

variable {k : Kind} {codec : Codec R C} {file : Option R} {B c : C} {h h' : ConfigHost R C} {p : Pending R}
    {st : DomainState R} {actor : Actor}

/-- The lease can no longer be confirmed. -/
def Lapsed (h : ConfigHost R C) (p : Pending R) : Prop :=
  h.serving = false ∨ p.deadline ≤ h.world.clock

/-- The invariant, with the configuration `B` in force. -/
structure Held (k : Kind) (codec : Codec R C) (file : Option R) (B : C) (h : ConfigHost R C) :
    Prop where
  current : inForce codec file h.saves = some B
  confirmed : codec.parseConfig (h.domain (k.domain codec)).confirmed = some B
  idle : (h.domain (k.domain codec)).pending = none → codec.parseConfig h.world.file = some B
  snapshot : ∀ p, (h.domain (k.domain codec)).pending = some p →
    p.snapshot.bind codec.parse = some B
  applied : ∀ p, (h.domain (k.domain codec)).pending = some p → p.applied = true →
    Lapsed h p ∨ codec.parseConfig h.world.file = codec.parse p.target ∧
      ∃ c, codec.parse p.target = some c
  history : SnapshotsDenote codec file h.saves

/-! ### What one effect does to the invariant -/

theorem inForce_saved (hactor : actor ≠ .confirm) (st : DomainState R) :
    inForce codec file (h.saved (k.domain codec) actor st).saves = inForce codec file h.saves := by
  show inForce codec file (_ :: h.saves) = inForce codec file h.saves
  simp [inForce, hactor]

/-- Ending a lease while the file denotes the configuration in force. -/
theorem Held.ended (hh : Held k codec file B h) (hactor : actor ≠ .confirm) (hpending : st.pending = none)
    (hconf : st.confirmed = (h.domain (k.domain codec)).confirmed)
    (hfile : codec.parseConfig h.world.file = some B) :
    Held k codec file B (h.saved (k.domain codec) actor st) := by
  have hnone : ∀ p, ((h.saved (k.domain codec) actor st).domain (k.domain codec)).pending
      ≠ some p := by
    intro p hp
    rw [Host.domain_saved, hpending] at hp
    exact absurd hp (by simp)
  refine ⟨(inForce_saved hactor st).trans hh.current, ?_, fun _ => hfile,
    fun p hp => absurd hp (hnone p), fun p hp => absurd hp (hnone p), ?_, hh.history⟩
  · rw [Host.domain_saved, hconf]
    exact hh.confirmed
  · intro p hp
    exact absurd hp (hnone p)

/-- Saving a record whose pending lease carries a snapshot of the configuration in force. -/
theorem Held.leased (hh : Held k codec file B h) (hactor : actor ≠ .confirm) (hpending : st.pending = some p)
    (hconf : st.confirmed = (h.domain (k.domain codec)).confirmed)
    (hsnap : p.snapshot.bind codec.parse = some B)
    (happlied : p.applied = true → codec.parseConfig h.world.file = codec.parse p.target ∧
      ∃ c, codec.parse p.target = some c) : Held k codec file B (h.saved (k.domain codec) actor st) := by
  have hdom : ∀ q, ((h.saved (k.domain codec) actor st).domain (k.domain codec)).pending = some q →
      q = p := by
    intro q hq
    rw [Host.domain_saved, hpending, Option.some.injEq] at hq
    exact hq.symm
  refine ⟨(inForce_saved hactor st).trans hh.current, ?_, fun hnone => ?_, fun q hq => ?_,
    fun q hq ha => ?_, fun q hq => ?_, hh.history⟩
  · rw [Host.domain_saved, hconf]
    exact hh.confirmed
  · rw [Host.domain_saved, hpending] at hnone
    exact absurd hnone (by simp)
  · rw [hdom q hq]
    exact hsnap
  · obtain rfl := hdom q hq
    exact Or.inr (happlied ha)
  · rw [hdom q hq]
    exact ⟨B, hsnap, hh.current⟩

/-- A confirmation puts the target into force, and the file already denotes it. -/
theorem Held.confirm (hh : Held k codec file B h) (htarget : codec.parse p.target = some c)
    (hfile : codec.parseConfig h.world.file = codec.parse p.target) :
    Held k codec file c (h.saved (k.domain codec) .confirm
      { confirmed := some p.target, pending := none }) := by
  refine ⟨?_, htarget, fun _ => hfile.trans htarget, fun q hq => ?_, fun q hq => ?_,
    fun q hq => ?_, hh.history⟩
  · show inForce codec file (_ :: h.saves) = some c
    exact (if_pos rfl).trans htarget
  · rw [Host.domain_saved] at hq
    exact absurd hq (by simp)
  · rw [Host.domain_saved] at hq
    exact absurd hq (by simp)
  · exact absurd hq (by simp)

/-- A record that was written does not depend on the configuration file. -/
theorem domain_withWorld (hrec : h.record = some st) (w : Managed R C) :
    (h.withWorld w).domain (k.domain codec) = h.domain (k.domain codec) := by
  show (h.record.getD _) = h.record.getD _
  rw [hrec]
  rfl

/-- A pending lease stands in a record that was written. -/
theorem record_of_pending (hp : (h.domain (k.domain codec)).pending = some p) : ∃ st, h.record = some st := by
  cases hrec : h.record with
  | some st => exact ⟨st, rfl⟩
  | none =>
    have hnone : (h.domain (k.domain codec)).pending = none := by
      show (h.record.getD _).pending = none
      rw [hrec]
      rfl
    exact absurd (hnone.symm.trans hp) (by simp)

/-- Under a lapsed lease, or one that is not applied yet, the file can be anything. -/
theorem Held.mutated (hh : Held k codec file B h) (hp : (h.domain (k.domain codec)).pending = some p)
    (hopen : p.applied = false ∨ Lapsed h p) {w : Managed R C} (hclock : w.clock = h.world.clock) :
    Held k codec file B (h.withWorld w) := by
  obtain ⟨st, hrec⟩ := record_of_pending hp
  have hdom : (h.withWorld w).domain (k.domain codec) = h.domain (k.domain codec) :=
    domain_withWorld hrec w
  refine ⟨hh.current, ?_, fun hnone => ?_, ?_, fun q hq ha => ?_, hh.history⟩
  · rw [hdom]; exact hh.confirmed
  · rw [hdom, hp] at hnone
    exact absurd hnone (by simp)
  · rw [hdom]; exact hh.snapshot
  · rw [hdom, hp, Option.some.injEq] at hq
    subst hq
    rcases hopen with hna | hl
    · exact absurd (hna.symm.trans ha) (by simp)
    · exact Or.inl (hl.imp id fun hle => by show _ ≤ w.clock; rw [hclock]; exact hle)

theorem pending_withWorld (hnone : (h.domain (k.domain codec)).pending = none) (w : Managed R C) :
    ((h.withWorld w).domain (k.domain codec)).pending = none := by
  cases hrec : h.record with
  | some => rw [domain_withWorld hrec]; exact hnone
  | none =>
    show (h.record.getD _).pending = none
    rw [hrec]
    rfl

/-- Replacing the file by other bytes for the configuration in force. -/
theorem Held.refiled (hh : Held k codec file B h)
    (hnone : (h.domain (k.domain codec)).pending = none) {w : Managed R C}
    (hfile : codec.parseConfig w.file = some B) : Held k codec file B (h.withWorld w) := by
  have hpend := pending_withWorld hnone w
  refine ⟨hh.current, ?_, fun _ => hfile, fun p hp => absurd (hpend.symm.trans hp) (by simp),
    fun p hp => absurd (hpend.symm.trans hp) (by simp), hh.history⟩
  cases hrec : h.record with
  | some => rw [domain_withWorld hrec]; exact hh.confirmed
  | none =>
    -- Without a record the confirmed bytes are the file's own.
    show codec.parseConfig (h.record.getD _).confirmed = some B
    rw [hrec]
    exact hfile

/-- What is not the file, the clock or the record does not matter. -/
theorem Held.framed (hh : Held k codec file B h) (hfile : h'.world.file = h.world.file)
    (hclock : h.world.clock ≤ h'.world.clock) (hrec : h'.record = h.record) (hsaves : h'.saves = h.saves)
    (hup : h'.serving = true → h.serving = true ∨ (h.domain (k.domain codec)).pending = none) :
    Held k codec file B h' := by
  have hdom : h'.domain (k.domain codec) = h.domain (k.domain codec) := by
    show h'.record.getD { confirmed := h'.world.file, pending := none } = _
    rw [hrec, hfile]
    rfl
  refine ⟨?_, ?_, ?_, ?_, fun p hp ha => ?_, ?_⟩
  · rw [hsaves]; exact hh.current
  · rw [hdom]; exact hh.confirmed
  · rw [hdom, hfile]; exact hh.idle
  · rw [hdom]; exact hh.snapshot
  · rw [hdom] at hp
    rw [hfile]
    rcases hh.applied p hp ha with (hdown | hdue) | hok
    · refine Or.inl (Or.inl ?_)
      cases hs : h'.serving with
      | false => rfl
      | true =>
        rcases hup hs with hserve | hnone
        · exact absurd (hdown.symm.trans hserve) (by simp)
        · exact absurd (hnone.symm.trans hp) (by simp)
    · exact Or.inl (Or.inr (Int.le_trans hdue hclock))
    · exact Or.inr hok
  · rw [hsaves]; exact hh.history

theorem Held.timers (hh : Held k codec file B h) (ts : List String) : Held k codec file B { h with timers := ts } :=
  hh.framed rfl (Int.le_refl _) rfl rfl Or.inl

/-! ### Programs on the world -/

theorem parseOrFail_triple (raw : Option R) (hc : codec.parseConfig raw = some c) (w0 : Managed R C) :
    Triple (fun w => w = w0) (parseOrFail codec raw) (fun a w => a = c ∧ w = w0)
      (fun w => w = w0) := by
  unfold parseOrFail
  rw [hc]
  exact Triple.pure fun w hw => ⟨rfl, hw⟩

/-- Saving the file ends with the new bytes, or with the old ones and no normal return. -/
theorem saveConfig_triple (raw : R) (w0 : Managed R C) :
    Triple (fun w => w = w0) (saveConfig k raw) (fun _ w => w = { w0 with file := some raw })
      (fun w => w = w0 ∨ w = { w0 with file := some raw }) := by
  refine Triple.attempt ?_ ?_
  · rintro w rfl
    rfl
  · rintro w rfl
    exact ⟨Or.inl rfl, Or.inr rfl⟩

/-- The mutation of an apply or a rollback in the daemon: when it returns, the file and the
manager agree. -/
theorem mutate_triple (desired : C) (json : R) (w0 : Managed R C) :
    Triple (fun w => w = w0) (mutate k desired json)
      (fun _ w => w = { w0 with file := some json, config := desired })
      (fun w => w.clock = w0.clock) := by
  cases k with
  | dhcp =>
    refine Triple.bind (R := fun _ w => w = w0) (Triple.fallible (fun _ hw => hw) ?_) fun _ => ?_
    · rintro w rfl
      rfl
    refine Triple.bind ((saveConfig_triple json w0).exit ?_)
      fun _ => Triple.update ?_
    · rintro w (rfl | rfl) <;> rfl
    · rintro w rfl
      rfl
  | mdns =>
    refine Triple.bind (R := fun _ w => w = { w0 with config := desired }) ?_ fun _ => ?_
    · refine Triple.bind (R := fun _ w => w = w0) (Triple.fallible (fun _ hw => hw) ?_)
        fun _ => Triple.update ?_
      · rintro w rfl
        rfl
      · rintro w rfl
        rfl
    · refine (saveConfig_triple json _).exit ?_
      rintro w (rfl | rfl) <;> rfl

/-- The rollback inside the daemon. -/
theorem restoreManaged_triple {raw : R} (hc : codec.parse raw = some c) (w0 : Managed R C) :
    Triple (fun w => w = w0) (restoreManaged k codec raw)
      (fun _ w => w = { w0 with file := some raw, config := c }) (fun w => w.clock = w0.clock) := by
  refine Triple.bind ((parseOrFail_triple (some raw) hc w0).exit fun w hw => by rw [hw]) fun a => ?_
  refine Triple.of_state fun w hw => ?_
  obtain ⟨rfl, rfl⟩ := hw
  exact mutate_triple a raw w

/-- The rollback in the revert process and the restore of boot. -/
theorem restoreConfigFile_triple {raw : Option R} (hc : codec.parseConfig raw = some c) (w0 : Managed R C) :
    Triple (fun w => w = w0) (restoreConfigFile k codec raw)
      (fun _ w => w = { w0 with file := some (raw.getD codec.blank) })
      (fun w => w = w0 ∨ w = { w0 with file := some (raw.getD codec.blank) }) := by
  refine Triple.bind ((parseOrFail_triple raw hc w0).exit fun w hw => Or.inl hw) fun a => ?_
  exact (saveConfig_triple _ w0).pre (fun _ hw => hw.2)

/-- The bytes a restore writes denote what it was given. -/
theorem parseConfig_getD_blank (raw : Option R) :
    codec.parseConfig (some (raw.getD codec.blank)) = codec.parseConfig raw := by
  cases raw with
  | none => exact codec.parse_blank
  | some => rfl

/-- The file and the clock are `f` and `t`. -/
def Frame (f : Option R) (t : Int) (w : Managed R C) : Prop := w.file = f ∧ w.clock = t

section Frame

variable {f : Option R} {t : Int}

theorem loadConfig_frame :
    Keeps (Frame (C := C) f t) (loadConfig k) :=
  .bind .fallible fun _ => .bind .get fun _ => .pure

theorem parseOrFail_frame (raw : Option R) : Keeps (Frame f t) (parseOrFail codec raw) := by
  unfold parseOrFail
  cases codec.parseConfig raw with
  | some => exact .pure
  | none => exact .fail

theorem managerApply_frame (c : C) : Keeps (Frame f t) (managerApply c (pure ())) :=
  .bind .fallible fun _ => .bind .pure fun _ => .update fun _ hw => hw

theorem serviceApply_frame (c : C) : Keeps (Frame (R := R) f t) (serviceApply c) :=
  .bind .fallible fun _ => .update fun _ hw => hw

theorem start_frame : Keeps (Frame f t) (start k codec) := by
  cases k with
  | mdns => exact .pure
  | dhcp =>
    exact .bind loadConfig_frame fun raw => .bind (parseOrFail_frame raw) fun c =>
      .bind (managerApply_frame c) fun _ => .update fun _ hw => hw

/-- The watcher only moves the manager. -/
theorem watch_frame [DecidableEq R] [DecidableEq C] : Keeps (Frame f t) (watch k codec) := by
  refine .bind loadConfig_frame fun latest => ?_
  cases k with
  | dhcp =>
    refine .bind .get fun w => .ite (fun _ => .pure) fun _ => ?_
    exact .bind (parseOrFail_frame latest) fun c => .bind (managerApply_frame c) fun _ => .update fun _ hw => hw
  | mdns =>
    refine .bind (parseOrFail_frame latest) fun want => .bind .get fun w => ?_
    exact .ite (fun _ => .pure) fun _ => serviceApply_frame want

end Frame

/-! ### Programs on the host -/

/-- Some configuration is in force and the invariant holds with it. -/
def Sound (k : Kind) (codec : Codec R C) (file : Option R) (h : ConfigHost R C) : Prop :=
  ∃ B, Held k codec file B h

/-- The state in which an apply takes its snapshot: no lease is pending and the manager runs
the configuration in force. -/
structure Ready (k : Kind) (codec : Codec R C) (file : Option R) (B : C) (h : ConfigHost R C) :
    Prop where
  held : Held k codec file B h
  pending : (h.domain (k.domain codec)).pending = none
  config : h.world.config = B

theorem recoverExpired_held (now : Int) :
    Triple (fun h => Held k codec file B h ∧ h.world.clock = now ∧ CalmApply k codec h)
      (recoverExpired (k.domain codec) now) (fun _ => Ready k codec file B)
      (Held k codec file B) := by
  refine Triple.of_state fun h hu => ?_
  obtain ⟨hh, hclock, hcalm⟩ := hu
  refine recoverExpired_rule hh (fun _ hr => hr.held) (fun hp => ⟨hh, hp, ?_⟩) fun p b hp hsnap hdue => ?_
  · have hconv : codec.parseConfig h.world.file = some h.world.config := hcalm hp
    rw [hh.idle hp, Option.some.injEq] at hconv
    exact hconv.symm
  · have hb : codec.parse b = some B := by
      have h1 := hh.snapshot p hp
      rw [hsnap] at h1
      exact h1
    -- The lease is past its deadline, so a half-done rollback breaks nothing.
    have hlapsed : Lapsed h p := Or.inr (by rw [hclock]; exact hdue)
    refine (restoreManaged_triple hb h.world).weaken (fun _ hw => hw) ?_ fun _ hw =>
      hh.mutated hp (Or.inr hlapsed) hw
    rintro _ w rfl
    have hkept := hh.mutated hp (Or.inr hlapsed) (w := { h.world with file := some b, config := B }) rfl
    refine ⟨hkept, hkept.ended (by decide) rfl ?_ hb, rfl, rfl⟩
    obtain ⟨st, hrec⟩ := record_of_pending hp
    rw [domain_withWorld hrec]

/-- The state of an apply whose lease is recorded and whose mutation is not done. -/
structure Begun (k : Kind) (codec : Codec R C) (file : Option R) (B : C) (json : R)
    (h : ConfigHost R C) : Prop where
  held : Held k codec file B h
  pending : ∃ p, (h.domain (k.domain codec)).pending = some p ∧ p.applied = false ∧
    p.target = json

/-- `begin` records the running configuration, which is the one in force. -/
theorem begin_held (now timeout : Int) (json : R) (peer id : String) :
    Triple (Ready k codec file B)
      (begin (k.domain codec) now timeout json peer id (codec.marshal B))
      (fun _ => Begun k codec file B json) (Held k codec file B) := by
  refine Triple.of_state fun h hr => ?_
  have hissued : Held k codec file B { h with issued := id :: h.issued } :=
    hr.held.framed rfl (Int.le_refl _) rfl rfl Or.inl
  refine begin_rule hr.held (fun _ hb => hb.held) (fun _ => hissued) fun s _ hs ts => ?_
  have hbegun : Held k codec file B s := by
    rw [hs]
    exact hissued.leased (by decide) rfl rfl (codec.parse_marshal B) fun happlied => (by cases happlied)
  subst hs
  have htimers := hbegun.timers ts
  -- The file still denotes what is in force: the lease can be withdrawn.
  exact ⟨⟨htimers, _, rfl, rfl, rfl⟩, htimers.ended (by decide) rfl rfl (hr.held.idle hr.pending)⟩

/-- The mutation happens under a lease that is not applied yet. -/
theorem mutate_held (desired : C) (json : R) :
    Triple (Begun k codec file B json) (onWorld (mutate k desired json))
      (fun _ h => Begun k codec file B json h ∧ h.world.file = some json)
      (Held k codec file B) := by
  refine onWorld_triple fun h hb => ?_
  obtain ⟨p, hp, hna, htarget⟩ := hb.pending
  obtain ⟨st, hrec⟩ := record_of_pending hp
  refine (mutate_triple desired json h.world).weaken (fun _ hw => hw) ?_ ?_
  · rintro _ w rfl
    refine ⟨⟨hb.held.mutated hp (Or.inl hna) rfl, p, ?_, hna, htarget⟩, rfl⟩
    rw [domain_withWorld hrec]
    exact hp
  · intro w hw
    exact hb.held.mutated hp (Or.inl hna) hw

/-- Once the mutation is done the lease can be confirmed: the file denotes its target. -/
theorem finishApply_held {json : R} {desired : C} (hjson : codec.parse json = some desired) :
    Triple (fun h => Begun k codec file B json h ∧ h.world.file = some json)
      (finishApply (k.domain codec)) (fun _ => Held k codec file B) (Held k codec file B) := by
  refine Triple.of_state fun h hh => ?_
  obtain ⟨hb, hfile⟩ := hh
  refine finishApply_rule hb.held fun p hp => ?_
  obtain ⟨q, hq, -, htarget⟩ := hb.pending
  obtain rfl : q = p := Option.some.inj (hq.symm.trans hp)
  refine hb.held.leased (by decide) rfl rfl (hb.held.snapshot q hq) fun _ => ?_
  show _ = codec.parse q.target ∧ ∃ c, codec.parse q.target = some c
  rw [hfile, htarget]
  exact ⟨rfl, desired, hjson⟩

/-- A whole apply. -/
theorem applyConfig_held (now : Int) (req : ConfigRequest R) (id : String) :
    Triple (fun h => Held k codec file B h ∧ h.world.clock = now ∧ CalmApply k codec h)
      (applyConfig k codec now req id) (fun _ => Held k codec file B) (Held k codec file B) := by
  refine Triple.bind (Keeps.fallible.exit fun _ hu => hu.1) fun _ => ?_
  cases hjson : codec.parse req.json with
  | none =>
    -- A request that does not parse is refused before anything else.
    refine Triple.bind (R := fun _ _ => False) (onWorld_triple fun h hu => ?_) fun _ h hf => hf.elim
    rw [parseOrFail, show codec.parseConfig (some req.json) = none from hjson]
    refine Triple.fail ?_
    rintro w rfl
    exact hu.1
  | some desired =>
    refine Triple.bind (R := fun c h => c = desired ∧
        Held k codec file B h ∧ h.world.clock = now ∧ CalmApply k codec h)
      (onWorld_triple fun h hu => ?_) fun c => ?_
    · refine (parseOrFail_triple (some req.json) hjson h.world).weaken (fun _ hw => hw) ?_ ?_
      · rintro c w ⟨rfl, rfl⟩
        exact ⟨rfl, hu⟩
      · rintro w rfl
        exact hu.1
    refine Triple.of_state fun h0 hc => ?_
    obtain ⟨rfl, hu⟩ := hc
    refine Triple.bind ((recoverExpired_held now).pre (fun h hh => hh ▸ hu)) fun _ => ?_
    refine Triple.bind (R := fun running h => running = B ∧ Ready k codec file B h)
      (onWorld_triple fun h hr => ?_) fun running => ?_
    · refine Triple.bind (R := fun a w => a = w ∧ w = h.world) (Triple.get fun w hw => ⟨rfl, hw⟩)
        fun a => Triple.pure ?_
      rintro w ⟨rfl, rfl⟩
      exact ⟨hr.config, hr⟩
    · refine Triple.of_state fun h₁ hr => ?_
      obtain ⟨rfl, hr⟩ := hr
      refine Triple.bind ((begin_held now req.seconds req.json req.peer id).pre (fun h hh => hh ▸ hr)) fun _ => ?_
      exact Triple.bind (mutate_held c req.json) fun _ => finishApply_held hjson

/-- `Confirm` accepts only a lease whose target the file denotes, so that target is in force
afterwards. -/
theorem confirm_sound (now later : Int) (peer leaseID : String) :
    Triple (fun h => Held k codec file B h ∧ h.serving = true ∧ h.world.clock = now)
      (confirm (k.domain codec) now later peer leaseID) (fun _ => Sound k codec file)
      (Sound k codec file) := by
  refine Triple.of_state fun h hu => ?_
  obtain ⟨hh, hup, hclock⟩ := hu
  refine confirm_rule ⟨B, hh⟩ (fun s ts hs => ?_) fun p hp hnow happlied => Triple.pure ?_
  · obtain ⟨c, hc⟩ := hs
    exact ⟨c, hc.timers ts⟩
  · rintro w rfl
    -- The lease is applied and not past its deadline, so the file denotes its target.
    rcases hh.applied p hp happlied with (hdown | hdue) | ⟨hfile, c, hc⟩
    · exact absurd (hdown.symm.trans hup) (by simp)
    · omega
    · exact ⟨⟨B, hh⟩, c, hh.confirm hc hfile⟩

/-- Recovery by the revert process and by boot. It is only made when the lease it would roll
back can no longer be confirmed. -/
theorem recoverDomain_held (leaseID : String) :
    Triple (fun h => Held k codec file B h ∧
        ∀ p, (h.domain (k.domain codec)).pending = some p → leaseID = "" ∨ p.id = leaseID →
          Lapsed h p)
      (recoverDomain (k.domain codec) leaseID)
      (fun _ h => Held k codec file B h ∧
        (leaseID = "" → (h.domain (k.domain codec)).pending = none))
      (Held k codec file B) := by
  refine Triple.of_state fun h hu => ?_
  obtain ⟨hh, hlapsed⟩ := hu
  refine recoverDomain_rule hh (fun _ hq => hq.1) (fun hid => ⟨hh, fun hboot => absurd hboot hid⟩)
    (fun p hp hmine => ?_) fun hp _ => ?_
  · obtain ⟨st, hrec⟩ := record_of_pending hp
    have hopen : p.applied = false ∨ Lapsed h p := Or.inr (hlapsed p hp hmine)
    have hsnap : codec.parseConfig p.snapshot = some B := by
      have h1 := hh.snapshot p hp
      cases hs : p.snapshot with
      | none => rw [hs] at h1; exact absurd h1 (by simp)
      | some => rw [hs] at h1; exact h1
    refine (restoreConfigFile_triple hsnap h.world).weaken (fun _ hw => hw) ?_ ?_
    · rintro _ w rfl
      have hkept := hh.mutated hp hopen (w := { h.world with file := some (p.snapshot.getD codec.blank) }) rfl
      refine ⟨hkept, hkept.ended (by decide) rfl (by rw [domain_withWorld hrec]) ?_, fun _ => rfl⟩
      exact (parseConfig_getD_blank p.snapshot).trans hsnap
    · rintro w (rfl | rfl)
      · exact hh
      · exact hh.mutated hp hopen rfl
  · have hfile := (parseConfig_getD_blank _).trans hh.confirmed
    refine (restoreConfigFile_triple hh.confirmed h.world).weaken (fun _ hw => hw) ?_ ?_
    · rintro _ w rfl
      exact ⟨hh.refiled hp hfile, fun _ => pending_withWorld hp _⟩
    · rintro w (rfl | rfl)
      · exact hh
      · exact hh.refiled hp hfile

theorem boot_held :
    Triple (fun h => Held k codec file B h ∧ h.serving = false)
      (boot (k.domain codec) (start k codec)) (fun _ => Held k codec file B)
      (Held k codec file B) := by
  refine Triple.bind ((recoverDomain_held "").pre (fun h hu => ⟨hu.1, fun _ _ _ => Or.inl hu.2⟩)) fun _ => ?_
  refine Triple.bind (R := fun _ h => Held k codec file B h ∧
      (h.domain (k.domain codec)).pending = none) (onWorld_triple fun h hu => ?_) fun _ => ?_
  · have hframe : ∀ w : Managed R C, Frame h.world.file h.world.clock w →
        Held k codec file B (h.withWorld w) ∧
          ((h.withWorld w).domain (k.domain codec)).pending = none := by
      rintro w ⟨hf, ht⟩
      refine ⟨hu.1.framed hf (Int.le_of_eq ht.symm) rfl rfl Or.inl, ?_⟩
      show (h.record.getD { confirmed := w.file, pending := none }).pending = none
      rw [hf]
      exact hu.2 rfl
    refine start_frame.weaken (fun w hw => ?_) (fun _ w hw => hframe w hw) fun w hw => (hframe w hw).1
    exact ⟨congrArg Managed.file hw, congrArg Managed.clock hw⟩
  · refine Triple.update fun h hu => ?_
    exact hu.1.framed rfl (Int.le_refl _) rfl rfl fun _ => Or.inr hu.2

/-- The watcher does not touch anything the invariant reads. -/
theorem watch_held [DecidableEq R] [DecidableEq C] :
    Keeps (Held k codec file B) (onWorld (watch k codec)) := by
  refine onWorld_triple fun h hh => ?_
  have hframe : ∀ w : Managed R C, Frame h.world.file h.world.clock w →
      Held k codec file B (h.withWorld w) := fun w hw =>
    hh.framed hw.1 (Int.le_of_eq hw.2.symm) rfl rfl Or.inl
  refine watch_frame.weaken (fun w hw => ?_) (fun _ w hw => hframe w hw) hframe
  exact ⟨congrArg Managed.file hw, congrArg Managed.clock hw⟩

/-! ### Steps and runs -/

/-- Time passing keeps the invariant. -/
theorem Held.atTime (hh : Held k codec file B h) {now : Int} (hclock : h.world.clock ≤ now) :
    Held k codec file B (atTime now h) :=
  hh.framed rfl hclock rfl rfl Or.inl

/-- So does the daemon going down. -/
theorem Held.down (hh : Held k codec file B h) (hworld : h'.world = (k.domain codec).lose h.world)
    (hrec : h'.record = h.record) (hsaves : h'.saves = h.saves) (hdown : h'.serving = false) :
    Held k codec file B h' := by
  refine hh.framed ?_ ?_ hrec hsaves fun hup => absurd (hdown.symm.trans hup) (by simp)
  · rw [hworld]; rfl
  · rw [hworld]; exact Int.le_refl _

theorem Sound.settle {α : Type} {r : Outcome Status α × ConfigHost R C}
    (hs : Sound k codec file r.2) : Sound k codec file (Host.settle (k.domain codec) r) := by
  obtain ⟨o, h⟩ := r
  obtain ⟨B, hh⟩ := hs
  cases o with
  | ok => exact ⟨B, hh⟩
  | error => exact ⟨B, hh⟩
  | crash => exact ⟨B, hh.down rfl rfl rfl rfl⟩

/-- Every step of the host keeps the invariant, when an apply without a pending lease finds
the manager converged. -/
theorem sound_step [DecidableEq R] [DecidableEq C] (hstep : ConfigStep k codec (CalmApply k codec) h h')
    (hs : Sound k codec file h) : Sound k codec file h' := by
  obtain ⟨B, hh⟩ := hs
  cases hstep with
  | apply now req id clock up fresh calm run =>
    have hend := (applyConfig_held now req id).every_end (fun _ _ hh => hh)
      ⟨hh.atTime clock, rfl, calm⟩ run
    exact Sound.settle ⟨B, hend⟩
  | confirm now later peer leaseID clock up run =>
    exact ((confirm_sound now later peer leaseID).every_end (fun _ _ hs => hs)
      ⟨hh.atTime clock, up, rfl⟩ run).settle
  | timer now leaseID clock named armed due run =>
    refine ⟨B, (recoverDomain_held leaseID).every_end (fun _ _ hu => hu.1)
      ⟨hh.atTime clock, fun p hp hid => ?_⟩ run⟩
    rcases hid with hid | hid
    · exact absurd hid named
    · exact Or.inr (due p hp hid)
  | watch up run => exact Sound.settle ⟨B, watch_held.every_end hh run⟩
  | boot now clock down run =>
    have hend := boot_held.every_end (fun _ _ hh => hh) ⟨hh.atTime clock, down⟩ run
    exact Sound.settle ⟨B, hend⟩
  | die => exact ⟨B, hh.down rfl rfl rfl rfl⟩
  | reboot => exact ⟨B, hh.down rfl rfl rfl rfl⟩

theorem sound_configHost (hfile : codec.parseConfig file = some B) :
    Sound k codec file (configHost codec file) := by
  have hnone : ∀ p, ((configHost codec file).domain (k.domain codec)).pending ≠ some p :=
    fun p hp => Option.some_ne_none p hp.symm
  exact ⟨B, hfile, hfile, fun _ => hfile, fun p hp => absurd hp (hnone p),
    fun p hp => absurd hp (hnone p), trivial⟩

/-- In every run in which an apply that finds no pending lease finds the manager running
what the file says, each snapshot ever recorded denotes the configuration in force. -/
theorem snapshotsDenote_of_calm [DecidableEq R] [DecidableEq C] (k : Kind) (codec : Codec R C)
    (file : Option R) (hfile : (codec.parseConfig file).isSome) (h : ConfigHost R C)
    (hrun : Relation.ReflTransGen (ConfigStep k codec (CalmApply k codec))
      (configHost codec file) h) : SnapshotsDenote codec file h.saves := by
  obtain ⟨B, hB⟩ := Option.isSome_iff_exists.mp hfile
  obtain ⟨_, hh⟩ := invariant_of_run (sound_configHost (k := k) hB)
    (fun _ _ hstep hs => sound_step hstep hs) hrun
  exact hh.history

/-! ### A run that rolls back to an unconfirmed target -/

/-- A newest snapshot that denotes something else than what was in force. -/
theorem not_snapshotsDenote {e : Save (Managed R C) R} {rest : List (Save (Managed R C) R)} (c c' : C)
    (hp : e.after.pending = some p) (hsnap : p.snapshot.bind codec.parse = some c)
    (hforce : inForce codec file rest = some c') (hne : c ≠ c') : ¬ SnapshotsDenote codec file (e :: rest) := by
  rintro ⟨hhead, -⟩
  obtain ⟨b, hb, hin⟩ := hhead p hp
  rw [hsnap, Option.some.injEq] at hb
  rw [hforce, Option.some.injEq] at hin
  exact hne (hb.trans hin.symm)

/-- A format whose bytes are the configuration itself. -/
def plainCodec : Codec Nat Nat where
  parse := some
  marshal := id
  idle := 0
  blank := 0
  parse_marshal _ := rfl
  parse_blank := rfl

section Stale

variable (k : Kind)

/-- The daemon booted with configuration `1`, and its watcher ran. -/
def servingHost : ConfigHost Nat Nat :=
  let booted := Host.settle (k.domain plainCodec)
    (Prog.path (boot (k.domain plainCodec) (start k plainCodec)) 0
      (atTime 0 (configHost plainCodec (some 1))))
  Host.settle (k.domain plainCodec) (Prog.path (onWorld (watch k plainCodec)) 0 booted)

/-- Then configuration `2` was applied under the lease `l1`. -/
def leasedHost : ConfigHost Nat Nat :=
  Host.settle (k.domain plainCodec)
    (Prog.path (applyConfig k plainCodec 1 ⟨2, 30, "a"⟩ "l1") 0 (atTime 1 (servingHost k)))

/-- Nobody confirmed it, and the revert process rolled it back. -/
def revertedHost : ConfigHost Nat Nat :=
  (Prog.path (recoverDomain (k.domain plainCodec) "l1") 0 (atTime 40 (leasedHost k))).2

/-- Before the watcher ran, configuration `3` was applied under the lease `l2`. -/
def staleHost : ConfigHost Nat Nat :=
  Host.settle (k.domain plainCodec)
    (Prog.path (applyConfig k plainCodec 41 ⟨3, 30, "a"⟩ "l2") 0 (atTime 41 (revertedHost k)))

theorem servingHost_reachable (ready : ConfigHost Nat Nat → Prop) :
    Relation.ReflTransGen (ConfigStep k plainCodec ready)
      (configHost plainCodec (some 1)) (servingHost k) := by
  refine (Relation.ReflTransGen.single (ConfigStep.boot 0 (Int.le_refl _) rfl
    (Prog.path_mem (i := 0) ?_))).tail (ConfigStep.watch ?_ (Prog.path_mem (i := 0) ?_))
  · cases k <;> decide
  · cases k <;> rfl
  · cases k <;> decide

theorem leasedHost_reachable {ready : ConfigHost Nat Nat → Prop} (hready : ready (servingHost k)) :
    Relation.ReflTransGen (ConfigStep k plainCodec ready)
      (configHost plainCodec (some 1)) (leasedHost k) := by
  refine (servingHost_reachable k ready).tail (ConfigStep.apply 1 ⟨2, 30, "a"⟩ "l1" ?_ ?_ ?_ hready
    (Prog.path_mem (i := 0) ?_))
  · cases k <;> decide
  · cases k <;> rfl
  · cases k <;> decide
  · cases k <;> decide

theorem staleHost_reachable :
    Relation.ReflTransGen (ConfigStep k plainCodec (fun _ => True))
      (configHost plainCodec (some 1)) (staleHost k) := by
  have htimer : ConfigStep k plainCodec (fun _ => True) (leasedHost k) (revertedHost k) := by
    refine ConfigStep.timer 40 "l1" ?_ (by decide) ?_ ?_ (Prog.path_mem ?_)
    · cases k <;> decide
    · cases k <;> decide
    · intro p hp _
      have hdue : p = { applied := true, id := "l1", deadline := 31, snapshot := some 1,
                        target := 2, peer := "a" } := by
        cases k <;> exact (Option.some.inj hp).symm
      rw [hdue]
      decide
    · cases k <;> decide
  refine ((leasedHost_reachable k trivial).tail htimer).tail (ConfigStep.apply 41 ⟨3, 30, "a"⟩ "l2"
    ?_ ?_ ?_ trivial (Prog.path_mem (i := 0) ?_))
  · cases k <;> decide
  · cases k <;> rfl
  · cases k <;> decide
  · cases k <;> decide

/-- The lease `l2` would roll back to configuration `2`, though `1` is in force. -/
theorem staleHost_snapshot : ¬ SnapshotsDenote plainCodec (some 1) (staleHost k).saves := by
  cases k with
  | dhcp => exact not_snapshotsDenote 2 1 rfl rfl rfl (by decide)
  | mdns => exact not_snapshotsDenote 2 1 rfl rfl rfl (by decide)

end Stale

/-- In both domains a run of the program records the rolled-back target `2` as the snapshot
of a later lease, while the initial configuration `1` is in force. -/
theorem snapshot_of_rolledBackTarget :
    (Relation.ReflTransGen (ConfigStep .dhcp plainCodec (fun _ => True))
        (configHost plainCodec (some 1)) (staleHost .dhcp) ∧
      ¬ SnapshotsDenote plainCodec (some 1) (staleHost .dhcp).saves) ∧
    (Relation.ReflTransGen (ConfigStep .mdns plainCodec (fun _ => True))
        (configHost plainCodec (some 1)) (staleHost .mdns) ∧
      ¬ SnapshotsDenote plainCodec (some 1) (staleHost .mdns).saves) :=
  ⟨⟨staleHost_reachable .dhcp, staleHost_snapshot .dhcp⟩,
    staleHost_reachable .mdns, staleHost_snapshot .mdns⟩

/-- The first lease of that run does record the configuration in force. -/
theorem snapshotsDenote_leasedHost :
    (∃ p, ((leasedHost .dhcp).domain (Kind.domain .dhcp plainCodec)).pending = some p ∧
      p.snapshot = some 1) ∧
    SnapshotsDenote plainCodec (some 1) (leasedHost .dhcp).saves :=
  ⟨⟨_, rfl, rfl⟩, snapshotsDenote_of_calm .dhcp plainCodec (some 1) rfl (leasedHost .dhcp)
    (leasedHost_reachable .dhcp fun _ => rfl)⟩

end Ghostd.Proofs.Rpc
