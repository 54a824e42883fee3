import Ghostd.Rpc.Server

/-!
# `Ghostd.Proofs.Rpc.Lease`: what every domain's lease obeys

The rules for the programs on a `Host` that no domain changes: loading the record, working on the
domain's part of the world, and the five programs around an apply. Each of the five is started in one
host and asks only for what a domain decides. On top of them, the life of a lease identifier.
`resolutions` reads off the history of saves which leases were ended, each time a save turned a record
with a pending lease into one without. `Fresh` is the invariant that makes an identifier end at most
once: a pending identifier was issued and not ended before.
-/

set_option autoImplicit false

namespace Ghostd.Proofs.Rpc

open Ghostd.Lib Ghostd.State Ghostd.Rpc List

variable {L B α : Type} {d : Domain L B}
variable {st : DomainState B} {h : Host L B} {actor : Actor}

/-! ### Program rules -/

/-- Loading the record changes nothing and returns what the host holds. -/
theorem loadDomain_triple {P E : Host L B → Prop} (hE : ∀ h, P h → E h) :
    Triple P (loadDomain d) (fun st h => P h ∧ h.domain d = st) E := by
  refine Triple.bind (Keeps.fallible.exit hE) fun _ => ?_
  refine Triple.bind (R := fun st h => P h ∧ h = st) (Triple.get fun h hP => ⟨hP, rfl⟩)
    fun st => Triple.pure ?_
  rintro h ⟨hP, rfl⟩
  exact ⟨hP, rfl⟩

/-- A program on the domain's part of the world, started in the world of the host. -/
theorem onWorld_triple {P E : Host L B → Prop} {Q : α → Host L B → Prop}
    {m : Prog L Status α}
    (hm : ∀ h, P h → Triple (fun w => w = h.world) m (fun a w => Q a (h.withWorld w))
      (fun w => E (h.withWorld w))) :
    Triple P (onWorld m) Q E :=
  Triple.of_state fun h hP => Triple.zoom (hm h hP) (fun _ _ hQ => hQ) fun _ hE => hE

/-- The lease that `begin` records. -/
def begunLease (now timeout : Int) (target : B) (peer id : String) (snapshot : B) : Pending B :=
  { applied := false, id, deadline := now + timeout, snapshot := some snapshot, target, peer }

section Rules

variable {Q E : Host L B → Prop} {now later timeout : Int} {target snapshot : B} {peer id leaseID : String}

/-- The record as one host has it, or a failure that changes nothing. -/
theorem load_rule {f : DomainState B → Prog (Host L B) Status α} {Q : α → Host L B → Prop} (hE : E h)
    (hf : Triple (fun s => s = h) (f (h.domain d)) Q E) : Triple (fun s => s = h) (loadDomain d >>= f) Q E := by
  refine Triple.bind (loadDomain_triple fun s hs => hs ▸ hE) fun st => Triple.of_state fun s hs => ?_
  obtain ⟨rfl, rfl⟩ := hs
  exact hf

/-- Saving the record in a set of hosts that all have the saved record in `Q`. -/
theorem save_rule {P : Host L B → Prop} (hE : ∀ s, P s → E s) (hQ : ∀ s, P s → Q (s.saved d actor st))
    (hQE : ∀ s, Q s → E s) : Triple P (saveDomain d actor st) (fun _ => Q) E :=
  Triple.attempt hQ fun s hs => ⟨hE s hs, hQE _ (hQ s hs)⟩

/-- An expired lease is restored from its snapshot. -/
theorem recoverExpired_rule (hE : E h) (hQE : ∀ s, Q s → E s) (hidle : (h.domain d).pending = none → Q h)
    (hrestore : ∀ p b, (h.domain d).pending = some p → p.snapshot = some b → p.deadline ≤ now →
      Triple (fun w => w = h.world) (d.restore b) (fun _ w => E (h.withWorld w) ∧
        Q ((h.withWorld w).saved d .recover { h.domain d with pending := none })) fun w => E (h.withWorld w)) :
    Triple (fun s => s = h) (recoverExpired d now) (fun _ => Q) E := by
  have hfail : ∀ s, s = h → E s := fun s hs => hs ▸ hE
  refine load_rule hE ?_
  cases hp : (h.domain d).pending with
  | none => exact Triple.pure fun s hs => hs ▸ hidle hp
  | some p =>
    refine Triple.ite (fun _ => Triple.fail hfail) fun hdue => ?_
    cases hsnap : p.snapshot with
    | none => exact Triple.fail hfail
    | some b =>
      refine Triple.bind (onWorld_triple fun s hs => ?_) fun _ =>
        save_rule (P := fun s => E s ∧ Q (s.saved d .recover { h.domain d with pending := none }))
          (fun _ hs => hs.1) (fun _ hs => hs.2) hQE
      subst hs
      exact hrestore p b hp hsnap (Int.not_lt.mp hdue)

/-- The lease is saved, then its timer armed. Either may fail, and a failure withdraws the lease. -/
theorem begin_rule (hE : E h) (hQE : ∀ s, Q s → E s)
    (hissue : (h.domain d).pending = none → E { h with issued := id :: h.issued })
    (hbegin : ∀ s, (h.domain d).pending = none → s = ({ h with issued := id :: h.issued } : Host L B).saved d
        .begin { h.domain d with pending := some (begunLease now timeout target peer id snapshot) } →
      ∀ ts, Q { s with timers := ts } ∧
        E (({ s with timers := ts } : Host L B).saved d .abort { h.domain d with pending := none })) :
    Triple (fun s => s = h) (begin d now timeout target peer id snapshot) (fun _ => Q) E := by
  refine load_rule hE ?_
  cases hp : (h.domain d).pending with
  | some => exact Triple.fail fun s hs => hs ▸ hE
  | none =>
    have hall := hbegin _ hp rfl
    refine Triple.bind (R := fun _ s => s = { h with issued := id :: h.issued })
      (Triple.update fun s hs => by rw [hs]) fun _ => ?_
    refine Triple.bind (R := fun _ s => ∀ ts, Q { s with timers := ts } ∧
        E (({ s with timers := ts } : Host L B).saved d .abort { h.domain d with pending := none }))
      (Triple.attempt (fun s hs => hs ▸ hall) fun s hs => hs ▸ ⟨hissue hp, hQE _ (hall h.timers).1⟩)
      fun _ => ?_
    refine Triple.handle (E := fun s => Q s ∧ E (s.saved d .abort { h.domain d with pending := none }))
      (Triple.attempt (fun _ hs => (hs _).1) fun s hs => ⟨hs s.timers, hs _⟩) (fun e => ?_)
      fun _ hs => hQE _ hs.1
    refine Triple.bind (R := fun _ => E) (Triple.ignore (Triple.attempt (fun _ hs => hs.2)
      fun _ hs => ⟨hQE _ hs.1, hs.2⟩) fun _ hs => hs) fun _ => Triple.fail fun _ hs => hs

/-- A lease is marked as applied. -/
theorem finishApply_rule (hE : E h) (hsave : ∀ p, (h.domain d).pending = some p → E (h.saved d .finishApply
      { h.domain d with pending := some { p with applied := true } })) :
    Triple (fun s => s = h) (finishApply d) (fun _ => E) E := by
  refine Triple.bind (Keeps.fallible.exit fun s hs => hs ▸ hE) fun _ => load_rule hE ?_
  cases hp : (h.domain d).pending with
  | none =>
    intro s hs r hr
    rw [mem_singleton.mp hr, hs]
    exact hE
  | some p => exact save_rule (fun s hs => hs ▸ hE) (fun s hs => hs ▸ hsave p hp) fun _ hs => hs

/-- A lease that is confirmed is applied, not past its deadline and another connection's. -/
theorem confirm_rule (hE : E h) (htimers : ∀ s ts, E s → E { s with timers := ts })
    (hconfirmed : ∀ p, (h.domain d).pending = some p → now < p.deadline → p.applied = true →
      Triple (fun w => w = h.world) (d.confirmed p) (fun b w => E (h.withWorld w) ∧
        E ((h.withWorld w).saved d .confirm { confirmed := some b, pending := none })) fun w => E (h.withWorld w)) :
    Triple (fun s => s = h) (confirm d now later peer leaseID) (fun _ => E) E := by
  have hrequire : ∀ (b : Bool) (e : Status) (P : Prop), Triple (fun s => s = h ∧ P) (Prog.require b e)
      (fun _ s => s = h ∧ b = true) E :=
    fun b e P => Triple.require (fun s hs hb => ⟨hs.1, hb⟩) fun s hs => hs.1 ▸ hE
  refine load_rule hE ?_
  cases hp : (h.domain d).pending with
  | none => exact Triple.fail fun s hs => hs ▸ hE
  | some p =>
    refine Triple.bind (Keeps.require.exit fun s hs => hs ▸ hE) fun _ => Triple.bind (R := fun _ s => s = h ∧ now < p.deadline) (Triple.require
      (fun _ hs hnow => ⟨hs, of_decide_eq_true hnow⟩) fun s hs => hs ▸ hE) fun _ => ?_
    refine Triple.of_state fun s hs => ?_
    obtain ⟨rfl, hnow⟩ := hs
    refine Triple.bind ((hrequire _ _ True).pre fun _ hs => ⟨hs, trivial⟩) fun _ =>
      Triple.bind (hrequire _ _ _) fun _ => ?_
    refine Triple.bind (R := fun b s => E s ∧ E (s.saved d .confirm { confirmed := some b, pending := none }))
      (onWorld_triple fun s hs => ?_) fun b => ?_
    · obtain ⟨rfl, happlied⟩ := hs
      exact hconfirmed p hp hnow happlied
    refine Triple.bind (Keeps.require.exit fun _ hs => hs.1) fun _ => ?_
    refine Triple.bind (save_rule (fun _ hs => hs.1) (fun _ hs => hs.2) fun _ hs => hs) fun _ => ?_
    exact Triple.ignore (Keeps.attempt fun s hs => htimers s _ hs) fun _ hs => hs

/-- A pending lease is restored from its snapshot, and boot without one replays the confirmed bytes. -/
theorem recoverDomain_rule (hE : E h) (hQE : ∀ s, Q s → E s) (hother : leaseID ≠ "" → Q h)
    (hpending : ∀ p, (h.domain d).pending = some p → leaseID = "" ∨ p.id = leaseID →
      Triple (fun w => w = h.world) (d.recover p.snapshot) (fun _ w => E (h.withWorld w) ∧
        Q ((h.withWorld w).saved d .recover { h.domain d with pending := none })) fun w => E (h.withWorld w))
    (hnone : (h.domain d).pending = none → leaseID = "" →
      Triple (fun w => w = h.world) (d.recover (h.domain d).confirmed) (fun _ w => Q (h.withWorld w))
        fun w => E (h.withWorld w)) :
    Triple (fun s => s = h) (recoverDomain d leaseID) (fun _ => Q) E := by
  refine load_rule hE ?_
  cases hp : (h.domain d).pending with
  | some p =>
    refine Triple.ite (fun hmine => ?_) fun hmine => Triple.pure fun s hs =>
      hs ▸ hother fun hid => hmine (Or.inl hid)
    refine Triple.bind (onWorld_triple fun s hs => ?_) fun _ =>
      save_rule (P := fun s => E s ∧ Q (s.saved d .recover { h.domain d with pending := none }))
        (fun _ hs => hs.1) (fun _ hs => hs.2) hQE
    subst hs
    exact hpending p hp hmine
  | none =>
    refine Triple.ite (fun hboot => onWorld_triple fun s hs => ?_) fun hid => Triple.pure fun s hs =>
      hs ▸ hother hid
    subst hs
    exact hnone hp hboot

end Rules

/-! ### The life of a lease identifier -/

/-- The lease a save ended, if it ended one. -/
def resolvedID (e : Save L B) : Option String :=
  match e.before.pending, e.after.pending with
  | some p, none => some p.id
  | _, _ => none

/-- The leases that were ended, newest first. -/
def resolutions (saves : List (Save L B)) : List String := saves.filterMap resolvedID

/-- Every ended lease was issued and ended once, and a pending lease was issued and not
ended. -/
structure Fresh (d : Domain L B) (h : Host L B) : Prop where
  nodup : (resolutions h.saves).Nodup
  issued : ∀ id ∈ resolutions h.saves, id ∈ h.issued
  pending : ∀ p, (h.domain d).pending = some p → p.id ∈ h.issued ∧ p.id ∉ resolutions h.saves

/-- A save that keeps a lease pending, or starts from none, ends no lease. -/
theorem resolutions_saved_some (h : Host L B) (actor : Actor) {p : Pending B} (hst : st.pending = some p) :
    resolutions (h.saved d actor st).saves = resolutions h.saves := by
  show List.filterMap resolvedID (_ :: h.saves) = List.filterMap resolvedID h.saves
  rw [filterMap_cons]
  have hnone : resolvedID (L := L) { actor, before := h.domain d, after := st, world := h.world }
      = none := by
    unfold resolvedID
    rw [hst]
    cases (h.domain d).pending <;> rfl
  rw [hnone]

/-- A save without a pending lease ends the one that was pending. -/
theorem resolutions_saved_none (h : Host L B) (actor : Actor) (hst : st.pending = none) :
    resolutions (h.saved d actor st).saves
      = ((h.domain d).pending.map (·.id)).toList ++ resolutions h.saves := by
  show List.filterMap resolvedID (_ :: h.saves) = _
  rw [filterMap_cons]
  cases hp : (h.domain d).pending with
  | none => simp [resolvedID, hp, resolutions]
  | some => simp [resolvedID, hp, hst, resolutions]

theorem Fresh.saved_none (hf : Fresh d h) (hst : st.pending = none) : Fresh d (h.saved d actor st) := by
  have hres := resolutions_saved_none (d := d) h actor hst
  cases hp : (h.domain d).pending with
  | none =>
    rw [hp] at hres
    refine ⟨?_, ?_, fun p hcontra => ?_⟩
    · rw [hres]; exact hf.nodup
    · rw [hres]; exact hf.issued
    · rw [Host.domain_saved, hst] at hcontra
      exact absurd hcontra (by simp)
  | some p =>
    rw [hp] at hres
    obtain ⟨hissued, hnew⟩ := hf.pending p hp
    refine ⟨?_, ?_, fun q hcontra => ?_⟩
    · rw [hres]
      exact nodup_cons.mpr ⟨hnew, hf.nodup⟩
    · rw [hres]
      intro id hid
      rcases mem_cons.mp hid with rfl | hid
      · exact hissued
      · exact hf.issued id hid
    · rw [Host.domain_saved, hst] at hcontra
      exact absurd hcontra (by simp)

/-- Saving a record with a pending lease keeps `Fresh` when the lease was issued and not
ended. -/
theorem Fresh.saved_some (hf : Fresh d h) {p : Pending B} (hst : st.pending = some p)
    (hissued : p.id ∈ h.issued) (hnew : p.id ∉ resolutions h.saves) : Fresh d (h.saved d actor st) := by
  have hres := resolutions_saved_some (d := d) h actor hst
  refine ⟨?_, ?_, fun q hq => ?_⟩
  · rw [hres]; exact hf.nodup
  · rw [hres]; exact hf.issued
  · rw [Host.domain_saved, hst, Option.some.injEq] at hq
    rw [hres, ← hq]
    exact ⟨hissued, hnew⟩

/-- Issuing an identifier keeps `Fresh`. -/
theorem Fresh.issue (hf : Fresh d h) (id : String) : Fresh d { h with issued := id :: h.issued } :=
  ⟨hf.nodup, fun i hi => mem_cons_of_mem _ (hf.issued i hi), fun p hp =>
    ⟨mem_cons_of_mem _ (hf.pending p hp).1, (hf.pending p hp).2⟩⟩

/-! ### The record -/

/-- What the shared programs keep true of a record: `P` holds without a lease, of a lease that is
now complete, and of what a confirmation makes of it. -/
structure Recordable (d : Domain L B) (P : DomainState B → Prop) : Prop where
  legacy : ∀ w, P { confirmed := d.legacy w, pending := none }
  ended : ∀ st, P st → P { st with pending := none }
  applied : ∀ st p, P st → st.pending = some p → P { st with pending := some { p with applied := true } }
  confirmed : ∀ st p b w w', P st → st.pending = some p → (Outcome.ok b, w') ∈ d.confirmed p w →
    P { confirmed := some b, pending := none }

/-- The saved record is in `P`. The flags are here because only boot touches them. -/
structure Recorded (P : DomainState B → Prop) (serving rebooted : Bool) (h : Host L B) : Prop where
  record : ∀ st, h.record = some st → P st
  serving : h.serving = serving
  rebooted : h.rebooted = rebooted

section Record

variable {P : DomainState B → Prop} {up lost : Bool}

theorem Recorded.domain (hd : Recordable d P) (hh : Recorded P up lost h) : P (h.domain d) := by
  unfold Host.domain
  cases hrec : h.record with
  | none => exact hd.legacy h.world
  | some st => exact hh.record st hrec

theorem Recorded.saved (hh : Recorded P up lost h) (hst : P st) : Recorded P up lost (h.saved d actor st) := by
  refine ⟨fun st' hst' => ?_, hh.serving, hh.rebooted⟩
  rw [← Option.some.inj hst']
  exact hst

/-- Work on the domain's part of the world does not touch the record. -/
theorem onWorld_recorded (m : Prog L Status α) : Keeps (Recorded (L := L) P up lost) (onWorld m) :=
  onWorld_triple fun _ hh => Triple.of_forall (fun _ _ => ⟨hh.record, hh.serving, hh.rebooted⟩)
    fun _ => ⟨hh.record, hh.serving, hh.rebooted⟩

/-- A change of the rest of the host does not touch it either. -/
theorem Recorded.timers (hh : Recorded P up lost h) (ts : List String) :
    Recorded P up lost { h with timers := ts } :=
  ⟨hh.record, hh.serving, hh.rebooted⟩

theorem recoverExpired_recorded (hd : Recordable d P) (now : Int) :
    Keeps (Recorded P up lost) (recoverExpired d now) := by
  refine Triple.of_state fun h hh => recoverExpired_rule hh (fun _ hs => hs) (fun _ => hh) fun p b _ _ _ => ?_
  have hkeep : ∀ w, Recorded P up lost (h.withWorld w) := fun _ => ⟨hh.record, hh.serving, hh.rebooted⟩
  exact Triple.of_forall (fun _ w => ⟨hkeep w, (hkeep w).saved (hd.ended _ (hh.domain hd))⟩) hkeep

theorem begin_recorded (hd : Recordable d P) (now timeout : Int) (target : B) (peer id : String) (snapshot : B)
    (hbegin : ∀ st, P st → P { st with pending := some (begunLease now timeout target peer id snapshot) }) :
    Keeps (Recorded P up lost) (begin d now timeout target peer id snapshot) := by
  refine Triple.of_state fun h hh => ?_
  have hissue : Recorded P up lost { h with issued := id :: h.issued } := ⟨hh.record, hh.serving, hh.rebooted⟩
  refine begin_rule hh (fun _ hs => hs) (fun _ => hissue) fun s _ hs ts => ?_
  have hs' : Recorded P up lost s := hs ▸ hissue.saved (hbegin _ (hh.domain hd))
  exact ⟨hs'.timers ts, (hs'.timers ts).saved (hd.ended _ (hh.domain hd))⟩

theorem finishApply_recorded (hd : Recordable d P) : Keeps (Recorded P up lost) (finishApply d) :=
  Triple.of_state fun _ hh => finishApply_rule hh fun p hp => hh.saved (hd.applied _ p (hh.domain hd) hp)

theorem confirm_recorded (hd : Recordable d P) (now later : Int) (peer leaseID : String) :
    Keeps (Recorded P up lost) (confirm d now later peer leaseID) := by
  refine Triple.of_state fun h hh => confirm_rule hh (fun _ ts hs => hs.timers ts) fun p hp _ _ => ?_
  have hkeep : ∀ w, Recorded P up lost (h.withWorld w) := fun _ => ⟨hh.record, hh.serving, hh.rebooted⟩
  refine Triple.self.weaken (fun _ hw => hw) (fun b w hr => ⟨hkeep w, (hkeep w).saved ?_⟩) fun w _ => hkeep w
  exact hd.confirmed _ p b h.world w (hh.domain hd) hp hr

end Record

end Ghostd.Proofs.Rpc
