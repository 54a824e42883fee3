import Ghostd.Addressbook.Startup
import Ghostd.Proofs.Addressbook.Import

/-!
# `Ghostd.Proofs.Handover.Protocol`: the moves of a takeover

The takeover as a protocol. A `Move` changes one thing: the journal, one of the three places
that hold a configuration, the legacy service, its lease file, or the history of calls. Its
hypotheses say when the programs make it. A scope is switched on only while the legacy service
is masked and stopped, the service is unmasked and started only when every scope is off
everywhere, and the lease file is only written for a takeover that was activated.

`moves_of_hostStep` says that every step of the host, with all the points at which it can fail
or crash, is a sequence of moves. The properties of takeovers are then invariants of single
moves.
-/

set_option autoImplicit false

namespace Ghostd.Proofs.Handover

open Ghostd.Lib Ghostd.State Ghostd.Addressbook Ghostd.Handover Ghostd.Proofs.Addressbook List

variable {j : HandoverJournal} {h : Machine} {c : Config} {e : Status} {α : Type}

/-! ### Moves -/

/-- The configuration that boot restores: the record's, or the file where there is no record. -/
def confirmedConfig (h : Machine) : Option Config := h.record.elim h.world.file (·.confirmed)

/-- Every scope is off in the manager, in the file and in the record. -/
def Disarmed (h : Machine) : Prop :=
  Off h.world.config ∧ (∀ c ∈ h.world.file, Off c) ∧ ∀ c ∈ confirmedConfig h, Off c

/-- Where a configuration that is stored comes from. Only the target of a takeover whose lease
file was read can have a scope on that was off everywhere. -/
inductive Source (h : Machine) (c : Config) : Prop where
  | off (hc : Off c)
  | target (masked : h.world.legacy.masked = true) (stopped : h.world.legacy.running = false)
      (phase : h.world.journal.phase = .snapshot)
  | file (same : h.world.file.getD {} = c)
  | confirmed (same : (confirmedConfig h).getD {} = c)

/-- When a journal may replace the one that is stored. -/
structure Follows (h : Machine) (j : HandoverJournal) : Prop where
  active : j.phase.idle = false → h.world.journal.phase.idle = false
  stopping : j.phase = .stopping → h.world.journal.phase = .stopping
  ended : j.phase.idle = true → Disarmed h
  activated : j.activated = false → h.world.journal.activated = false

/-- One move. -/
inductive Move (h : Machine) : Machine → Prop where
  | ledger (store : Ledger) (keyed : Keyed h.world.store → Keyed store) :
      Move h (h.withWorld { h.world with store })
  | archive (j : HandoverJournal) :
      Move h (h.withWorld { h.world with history := h.world.history ++ [j] })
  | openJournal (j : HandoverJournal) (idle : h.world.journal.phase.idle = true)
      (stopping : j.phase = .stopping) (fresh : j.activated = false) :
      Move h (h.withWorld { h.world with journal := j, original := h.world.legacy.leases })
  | journal (j : HandoverJournal) (follows : Follows h j) :
      Move h (h.withWorld { h.world with journal := j })
  | record (env : Env) (c : Config) (source : Source h c) :
      Move h (h.saved (dhcp env) .external { confirmed := some c, pending := none })
  | file (c : Config) (source : Source h c) : Move h (h.withWorld { h.world with file := some c })
  | config (c : Config) (source : Source h c) : Move h (h.withWorld { h.world with config := c })
  | loaded (raw : Option Config) : Move h (h.withWorld { h.world with loaded := raw })
  | mask : Move h (h.withWorld { h.world with legacy := { h.world.legacy with masked := true } })
  | stop : Move h (h.withWorld { h.world with legacy := { h.world.legacy with running := false } })
  | unmask (off : Disarmed h) :
      Move h (h.withWorld { h.world with legacy := { h.world.legacy with masked := false } })
  | startService (off : Disarmed h) :
      Move h (h.withWorld { h.world with legacy := { h.world.legacy with running := true } })
  | noteRollback : Move h (h.withWorld { h.world with
      calls := .rollback h.world.journal.activated h.world.legacy.running :: h.world.calls })
  | noteWrite (L : Ledger) (t : Int) (text : String) (isExport : IsExport L t text)
      (late : h.world.legacy.running = true → .rollback true true ∈ h.world.calls) :
      Move h (h.withWorld { h.world with
        calls := .write h.world.legacy.running L t text :: h.world.calls })
  | leases (text : String) (activated : h.world.journal.activated = true) :
      Move h (h.withWorld { h.world with legacy := { h.world.legacy with leases := text } })
  | noteStart (exported : Option (Ledger × Int)) (active : h.world.journal.phase.idle = false)
      (handed : h.world.journal.activated = true →
        ∃ L t, exported = some (L, t) ∧ IsExport L t h.world.legacy.leases) :
      Move h (h.withWorld { h.world with
        calls := .start h.world.journal.activated h.world.original h.world.legacy.leases exported ::
          h.world.calls })
  | serve : Move h { h with serving := true, rebooted := false }
  | die : Move h (died h)
  | reboot (running : Bool) (masked : running = true → h.world.legacy.masked = false) :
      Move h (died { h with
        rebooted := true, timers := [],
        world := { h.world with legacy := { h.world.legacy with running } } })
  | legacyWrites (text : String) : Move h (h.withWorld { h.world with
      original := text, legacy := { h.world.legacy with leases := text } })

/-- A sequence of moves. -/
def Moves : Machine → Machine → Prop := Relation.ReflTransGen Move

theorem Moves.snoc {h₀ h' : Machine} (hs : Moves h₀ h) (hmove : Move h h') : Moves h₀ h' :=
  Relation.ReflTransGen.tail hs hmove

/-- No configuration lease is pending. -/
def NoLease (h : Machine) : Prop := ∀ st ∈ h.record, st.pending = none

theorem noLease_move {h' : Machine} (hmove : Move h h') (hn : NoLease h) : NoLease h' := by
  cases hmove with
  | record =>
    intro st hst
    obtain rfl := Option.some.inj hst
    rfl
  | _ => exact hn

theorem noLease_moves {h₀ : Machine} (hmoves : Moves h₀ h) (hn : NoLease h₀) : NoLease h :=
  invariant_of_run hn (fun _ _ hmove => noLease_move hmove) hmoves

theorem domain_eq (env : Env) (h : Machine) :
    h.domain (dhcp env) = h.record.getD { confirmed := h.world.file, pending := none } := rfl

theorem pending_of_noLease (hn : NoLease h) (env : Env) : (h.domain (dhcp env)).pending = none := by
  rw [domain_eq]
  cases hrecord : h.record with
  | none => rfl
  | some st => exact hn st hrecord

theorem confirmed_domain (env : Env) (h : Machine) :
    (h.domain (dhcp env)).confirmed = confirmedConfig h := by
  rw [domain_eq, confirmedConfig]
  cases h.record with
  | none => rfl
  | some => rfl

/-! ### Programs on the world, one effect at a time -/

section World

variable {α β : Type}

theorem onWorld_bind (m : Prog World Status α) (f : α → Prog World Status β) :
    (onWorld (m >>= f) : Prog Machine Status β) = onWorld m >>= fun a => onWorld (f a) := by
  unfold onWorld
  refine Prog.zoom_bind ?_ ?_ m f
  · exact fun _ _ => rfl
  · exact fun _ _ _ => rfl

theorem onWorld_pure (a : α) : (onWorld (pure a) : Prog Machine Status α) = pure a := by
  unfold onWorld
  exact Prog.zoom_pure (fun _ => rfl) a

theorem onWorld_raise (x : Except Failure α) : (onWorld (raise x) : Prog Machine Status α) = raise x := by
  cases x with
  | ok a => exact onWorld_pure a
  | error e => cases e <;> rfl

end World

/-! ### Rules -/

section Rules

variable {α : Type} {h₀ : Machine} {P T F E : Machine → Prop}

/-- Some moves have been made, and a condition holds. -/
def After (h₀ : Machine) (P : Machine → Prop) (h : Machine) : Prop := Moves h₀ h ∧ P h

/-- Some moves have been made. -/
abbrev Moved (h₀ : Machine) : Machine → Prop := After h₀ fun _ => True

theorem After.moved (hh : After h₀ P h) : Moved h₀ h := ⟨hh.1, trivial⟩

/-- What holds after the moves can be weakened. -/
theorem After.imp (himp : ∀ h, P h → T h) (hh : After h₀ P h) : After h₀ T h :=
  ⟨hh.1, himp h hh.2⟩

/-- A write of the world that is a move. `F` is what is known when it fails. -/
theorem triple_attempt {f : World → World} (hmove : ∀ h, P h → Move h (h.withWorld (f h.world)))
    (hP : ∀ h, P h → T (h.withWorld (f h.world))) (hF : ∀ h, P h → F h) (hF' : ∀ h, T h → F h) :
    Triple (After h₀ P) (onWorld (Prog.attempt f e)) (fun _ => After h₀ T) (After h₀ F) := by
  refine .of_state fun h hh => ?_
  have hnext : After h₀ T (h.withWorld (f h.world)) := ⟨hh.1.snoc (hmove h hh.2), hP h hh.2⟩
  refine .zoom (.attempt (Q := fun _ w => w = f h.world)
    (E := fun w => w = h.world ∨ w = f h.world) ?_ ?_) ?_ ?_
  · rintro w rfl
    rfl
  · rintro w rfl
    exact ⟨Or.inl rfl, Or.inr rfl⟩
  · rintro - w rfl
    exact hnext
  · rintro w (rfl | rfl)
    · exact hh.imp hF
    · exact hnext.imp hF'

theorem triple_write {f : World → World} (hmove : ∀ h, P h → Move h (h.withWorld (f h.world)))
    (hP : ∀ h, P h → T (h.withWorld (f h.world))) :
    Triple (After h₀ P) (onWorld (Prog.attempt f e)) (fun _ => After h₀ T) (Moved h₀) :=
  triple_attempt hmove hP (fun _ _ => trivial) fun _ _ => trivial

/-- A change of memory that is a move. -/
theorem triple_update {f : World → World} (hmove : ∀ h, P h → Move h (h.withWorld (f h.world)))
    (hP : ∀ h, P h → T (h.withWorld (f h.world))) :
    Triple (After h₀ P) (onWorld (Prog.update f)) (fun _ => After h₀ T) E := by
  refine .of_state fun h hh => ?_
  refine .zoom (.update (Q := fun _ w => w = f h.world) (E := fun _ => False) ?_) ?_ ?_
  · rintro w rfl
    rfl
  · rintro - w rfl
    exact ⟨hh.1.snoc (hmove h hh.2), hP h hh.2⟩
  · exact fun w hw => hw.elim

theorem triple_fallible (hF : ∀ h, P h → F h) :
    Triple (After h₀ P) (onWorld (Prog.fallible e)) (fun _ => After h₀ P) (After h₀ F) := by
  refine .of_state fun h hh => ?_
  refine .zoom (.fallible (Q := fun _ w => w = h.world) (E := fun w => w = h.world) ?_ ?_) ?_ ?_
  · exact fun w hw => hw
  · exact fun w hw => hw
  · rintro - w rfl
    exact hh
  · rintro w rfl
    exact hh.imp hF

/-- Reading the world. -/
theorem triple_get :
    Triple (After h₀ P) (onWorld Prog.get) (fun w => After h₀ fun h => P h ∧ h.world = w) E := by
  refine .of_state fun h hh => ?_
  refine .zoom (.get (Q := fun a w => a = h.world ∧ w = h.world) (E := fun _ => False) ?_) ?_ ?_
  · exact fun w hw => ⟨hw, hw⟩
  · rintro a w ⟨rfl, rfl⟩
    exact ⟨hh.1, hh.2, rfl⟩
  · exact fun w hw => hw.elim

theorem triple_raise {x : Except Failure α} (hF : ∀ h, P h → F h) :
    Triple (After h₀ P) (raise x) (fun a => After h₀ fun h => P h ∧ x = .ok a) (After h₀ F) := by
  cases x with
  | ok => exact .pure fun h hh => ⟨hh.1, hh.2, rfl⟩
  | error e =>
    cases e with
    | panic =>
      intro h hh r hr
      obtain rfl : r = (.crash, h) := mem_singleton.mp hr
      exact hh.imp hF
    | unavailable => exact .fail fun h hh => hh.imp hF
    | error => exact .fail fun h hh => hh.imp hF

/-! ### The ledger and the journal -/

variable {env : Env} {i : Nat}

theorem triple_arrive (hP : ∀ h store, P h → P (h.withWorld { h.world with store })) :
    Triple (After h₀ P) (onWorld (arrive env i)) (fun _ => After h₀ P) E :=
  triple_update (fun _ _ => .ledger _ fun hk => keyed_run hk _) fun h hh => hP h _ hh

theorem triple_view (hP : ∀ h store, P h → P (h.withWorld { h.world with store }))
    (hF : ∀ h, P h → F h) (f : Int → Ledger → Except Failure α) :
    Triple (After h₀ P) (onWorld (view env i f))
      (fun a => After h₀ fun h => P h ∧ f (env.now i) h.world.store = .ok a) (After h₀ F) := by
  unfold view
  simp only [onWorld_bind, onWorld_raise]
  refine .bind (triple_arrive hP) fun _ => .bind (triple_fallible hF) fun _ => .bind triple_get fun w => ?_
  refine (triple_raise fun h hh => hF h hh.1).post (fun a h hh => ?_)
  obtain ⟨hmoves, ⟨hp, rfl⟩, hok⟩ := hh
  exact ⟨hmoves, hp, hok⟩

theorem triple_transact (hP : ∀ h store, P h → P (h.withWorld { h.world with store }))
    (hF : ∀ h, P h → F h) (f : Int → Ledger → Except Failure (α × Ledger))
    (hkeyed : ∀ now L a L', f now L = .ok (a, L') → Keyed L → Keyed L') :
    Triple (After h₀ P) (onWorld (transact env i f)) (fun _ => After h₀ P) (After h₀ F) := by
  unfold transact
  simp only [onWorld_bind, onWorld_raise]
  refine .bind (triple_arrive hP) fun _ => .bind triple_get fun w =>
    .bind (triple_raise fun h hh => hF h hh.1) fun p => ?_
  obtain ⟨a, store⟩ := p
  simp only [onWorld_pure]
  refine .bind (triple_attempt (T := P) (fun h hh => .ledger _ fun hk => ?_)
    (fun h hh => hP h _ hh.1.1) (fun h hh => hF h hh.1.1) hF) fun _ => ?_
  · obtain ⟨⟨-, rfl⟩, hf⟩ := hh
    exact hkeyed _ _ _ _ hf hk
  · exact .pure fun h hh => hh

theorem triple_checkAndBind (hP : ∀ h store, P h → P (h.withWorld { h.world with store }))
    (hF : ∀ h, P h → F h) (c : Config) :
    Triple (After h₀ P) (onWorld (checkAndBind env i c)) (fun _ => After h₀ P) (After h₀ F) := by
  unfold checkAndBind
  simp only [onWorld_bind]
  refine .bind (triple_view hP hF _) fun _ => .bind (triple_fallible fun h hh => hF h hh.1) fun _ => ?_
  refine (triple_transact hP hF _ fun now L a L' h => ?_).pre (fun h hh => hh.imp fun _ hp => hp.1)
  obtain ⟨-, rfl⟩ := Prod.mk.inj (Except.ok.inj h)
  exact keyed_of_bindings_eq (noteDNSConfig_aside L now c).bindings

theorem triple_loadHandover (hF : ∀ h, P h → F h) :
    Triple (After h₀ P) (onWorld loadHandover)
      (fun j => After h₀ fun h => P h ∧ h.world.journal = j) (After h₀ F) := by
  unfold loadHandover
  simp only [onWorld_bind, onWorld_pure]
  refine .bind (triple_fallible hF) fun _ => .bind triple_get fun w => .pure fun h hh => ?_
  obtain ⟨hmoves, hp, rfl⟩ := hh
  exact ⟨hmoves, hp, rfl⟩

theorem triple_loadFile (hF : ∀ h, P h → F h) :
    Triple (After h₀ P) (onWorld loadFile)
      (fun raw => After h₀ fun h => P h ∧ h.world.file = raw) (After h₀ F) := by
  unfold loadFile
  simp only [onWorld_bind, onWorld_pure]
  refine .bind (triple_fallible hF) fun _ => .bind triple_get fun w => .pure fun h hh => ?_
  obtain ⟨hmoves, hp, rfl⟩ := hh
  exact ⟨hmoves, hp, rfl⟩

/-- An import, as the programs run it, keeps the keys. -/
theorem keyed_import {doc : ImportDocument} (now : Int) (L : Ledger) (u : Unit) (L' : Ledger)
    (h : (do return ((), ← L.importDocument now c doc)) = Except.ok (u, L')) (hL : Keyed L) : Keyed L' := by
  simp only [bind_eq_ok, pure_eq_ok, Prod.mk.injEq] at h
  obtain ⟨L1, himport, -, rfl⟩ := h
  exact (importDocument_saves himport).keyed hL

/-! ### Storing a configuration -/

/-- A condition on the journal, the legacy service and the calls. Storing configurations and
transactions on the ledger do not touch it. -/
def Held (K : HandoverJournal → Legacy → List Call → Prop) (h : Machine) : Prop :=
  K h.world.journal h.world.legacy h.world.calls

variable {K : HandoverJournal → Legacy → List Call → Prop}

theorem triple_saveExternally (hsource : ∀ h, Held K h → Source h c) (hF : ∀ h, Held K h → F h) :
    Triple (After h₀ (Held K)) (saveExternallyManagedConfig env c)
      (fun _ => After h₀ fun h => Held K h ∧ h.world.file = some c ∧ confirmedConfig h = some c)
      (After h₀ F) := by
  unfold saveExternallyManagedConfig
  refine .bind (R := fun st => After h₀ fun h => Held K h ∧ h.domain (dhcp env) = st) ?_ fun st => ?_
  · refine .bind (R := fun _ => After h₀ (Held K)) (.fallible (fun _ hh => hh) fun _ hh => hh.imp hF)
      fun _ => ?_
    refine .bind (R := fun h' h => After h₀ (Held K) h ∧ h' = h) (.get fun _ hh => ⟨hh, rfl⟩)
      fun h' => .pure fun h hh => ?_
    obtain ⟨hh, rfl⟩ := hh
    exact ⟨hh.1, hh.2, rfl⟩
  · cases hpending : st.pending with
    | some => exact .fail fun h hh => ⟨hh.1, hF h hh.2.1⟩
    | none =>
      refine .bind (R := fun _ => After h₀ fun h => Held K h ∧
        h.record = some { confirmed := some c, pending := none }) ?_ fun _ => ?_
      · have hsaved : ∀ h, After h₀ (fun h => Held K h ∧ h.domain (dhcp env) = st) h →
            Moves h₀ (h.saved (dhcp env) .external { confirmed := some c, pending := none }) :=
          fun h hh => hh.1.snoc (.record env c (hsource h hh.2.1))
        refine .attempt (fun h hh => ⟨hsaved h hh, hh.2.1, rfl⟩) fun h hh => ⟨?_, hsaved h hh, ?_⟩
        · exact ⟨hh.1, hF h hh.2.1⟩
        · exact hF _ hh.2.1
      · refine triple_attempt (fun h hh => .file c (hsource h hh.1)) (fun h hh => ?_)
          (fun h hh => hF h hh.1) fun h hh => hF h hh.1
        refine ⟨hh.1, rfl, ?_⟩
        unfold confirmedConfig
        show h.record.elim _ _ = _
        rw [hh.2]
        rfl

theorem triple_apply (hsource : ∀ h, Held K h → Source h c) (hF : ∀ h, Held K h → F h) :
    Triple (After h₀ (Held K)) (apply env i c)
      (fun _ => After h₀ fun h => Held K h ∧ h.world.config = c ∧ h.world.file = some c ∧
        confirmedConfig h = some c) (After h₀ F) := by
  unfold apply
  refine .bind (triple_checkAndBind (fun _ _ hh => hh) hF c) fun _ => ?_
  refine .bind (triple_saveExternally hsource hF) fun _ => ?_
  exact triple_update (fun h hh => .config c (hsource h hh.1)) fun h hh => ⟨hh.1, rfl, hh.2.1, hh.2.2⟩

theorem off_disabled (c : Config) : Off (disabled c) := by
  intro s hs
  obtain ⟨s', -, rfl⟩ := mem_map.mp hs
  rfl

/-- After a configuration with every scope off was applied, no scope is on anywhere. -/
theorem triple_apply_disabled (c : Config) :
    Triple (After h₀ (Held K)) (apply env i (disabled c))
      (fun _ => After h₀ fun h => Held K h ∧ Disarmed h) (Moved h₀) := by
  refine (triple_apply (fun h _ => .off (off_disabled c)) fun _ _ => trivial).post (fun _ h hh => ?_)
  obtain ⟨hmoves, hk, hconfig, hfile, hconfirmed⟩ := hh
  refine ⟨hmoves, hk, ?_, ?_, ?_⟩
  · rw [hconfig]
    exact off_disabled c
  · rw [hfile]
    rintro c' ⟨⟩
    exact off_disabled c
  · rw [hconfirmed]
    rintro c' ⟨⟩
    exact off_disabled c

/-! ### Rollback -/

/-- The rollback of `j` is under way. If the legacy service runs although the takeover was
activated, it did so when the rollback began. -/
def RollingBack (j : HandoverJournal) (journal : HandoverJournal) (legacy : Legacy)
    (calls : List Call) : Prop :=
  journal = { j with phase := .rollingBack } ∧
    (j.activated = true → legacy.running = true → Call.rollback true true ∈ calls)

/-- The lease file is the export that the rollback of `j` made. -/
def HandedBack (j : HandoverJournal) (exported : Option (Ledger × Int)) (journal : HandoverJournal)
    (legacy : Legacy) (_ : List Call) : Prop :=
  journal = { j with phase := .rollingBack } ∧
    (j.activated = true → ∃ L t, exported = some (L, t) ∧ IsExport L t legacy.leases)

/-- The lease file is written for a takeover that was activated, with the export of the ledger
as it is. -/
theorem triple_writeLeases (hj : j.activated = true) {L : Ledger} {t : Int} {text : String}
    (hexport : IsExport L t text) : Triple (After h₀ (Held (RollingBack j))) (onWorld (writeLeases L t text))
      (fun _ => After h₀ (Held (HandedBack j (some (L, t))))) (Moved h₀) := by
  unfold writeLeases
  simp only [onWorld_bind]
  refine .bind (triple_update (T := Held (RollingBack j)) ?_ ?_) fun _ => triple_write ?_ ?_
  · exact fun h hh => .noteWrite L t text hexport (hh.2 hj)
  · exact fun h hh => ⟨hh.1, fun ha hr => mem_cons_of_mem _ (hh.2 ha hr)⟩
  · intro h hh
    refine .leases text ?_
    rw [hh.1]
    exact hj
  · exact fun h hh => ⟨hh.1, fun _ => ⟨L, t, rfl, hexport⟩⟩

theorem triple_handBack (hj : j.activated = true) :
    Triple (After h₀ (Held (RollingBack j))) (onWorld (handBack env j))
      (fun r => After h₀ (Held (HandedBack j (some r.1)))) (Moved h₀) := by
  unfold handBack
  simp only [onWorld_bind, onWorld_raise]
  refine .bind (triple_raise fun _ _ => trivial) fun doc => ?_
  refine .bind ((triple_view (fun _ _ hh => hh) (fun _ _ => trivial) _).pre (fun h hh => hh.imp fun _ hp => hp.1)) fun current => ?_
  refine .bind ((triple_transact (P := Held (RollingBack j)) (fun _ _ hh => hh) (fun _ _ => trivial)
    _ keyed_import).pre (fun h hh => hh.imp fun _ hp => hp.1))
    fun _ => ?_
  refine .bind (triple_view (fun _ _ hh => hh) (fun _ _ => trivial) _) fun p => ?_
  obtain ⟨ledger, current⟩ := p
  simp only [onWorld_pure]
  refine .bind (triple_raise fun _ _ => trivial) fun text => ?_
  refine .of_state fun h hh => ?_
  obtain ⟨hmoves, ⟨hk, hview⟩, htext⟩ := hh
  -- The export is that of the ledger that was read.
  have hexport : IsExport ledger (env.now 4) text := by
    cases hs : h.world.store.snapshot (env.now 4) "" "" 0 with
    | error =>
      rw [hs] at hview
      cases hview
    | ok s =>
      rw [hs] at hview
      obtain ⟨rfl, rfl⟩ := Prod.mk.inj (Except.ok.inj hview)
      exact ⟨s, hs, htext⟩
  refine Triple.weaken (.bind (triple_writeLeases hj hexport) fun _ =>
    .bind (triple_transact (fun _ _ hh => hh) (fun _ _ => trivial) _ ?_) fun n =>
      .pure fun h hh => hh) ?_
    (fun _ _ hh => hh) fun _ hh => hh
  · intro now L n L' h hL
    have hL' : (L.abandonDelegations now j.target).2 = L' := by
      rw [Except.ok.inj h]
    rw [← hL']
    exact keyed_apply hL now (.abandonDelegations j.target)
  · rintro h' rfl
    exact ⟨hmoves, hk⟩

theorem triple_handBackIfActivated (j : HandoverJournal) :
    Triple (After h₀ (Held (RollingBack j))) (onWorld (handBackIfActivated env j))
      (fun r => After h₀ (Held (HandedBack j r.1))) (Moved h₀) := by
  unfold handBackIfActivated
  split
  · rename_i hj
    simp only [onWorld_bind]
    refine .bind (triple_handBack hj) fun r => ?_
    obtain ⟨exported, n⟩ := r
    simp only [onWorld_pure]
    exact .pure fun h hh => hh
  · rename_i hj
    rw [onWorld_pure]
    exact .pure fun h hh => ⟨hh.1, hh.2.1, fun h => absurd h hj⟩

theorem triple_startLegacy {exported : Option (Ledger × Int)} :
    Triple (After h₀ fun h => Held (HandedBack j exported) h ∧ Disarmed h)
      (onWorld (startLegacy j.activated exported))
      (fun _ => After h₀ fun h => Held (HandedBack j exported) h ∧ Disarmed h) (Moved h₀) := by
  unfold startLegacy
  simp only [onWorld_bind]
  refine .bind (triple_update ?_ fun h hh => hh) fun _ =>
    .bind (triple_write (fun h hh => .unmask hh.2) fun h hh => hh) fun _ =>
    .bind (triple_write (fun h hh => .startService hh.2) fun h hh => hh) fun _ => triple_fallible fun _ _ => trivial
  intro h hh
  obtain ⟨⟨hjournal, hexport⟩, -⟩ := hh
  have hactivated : h.world.journal.activated = j.activated := by rw [hjournal]
  rw [← hactivated] at hexport ⊢
  refine .noteStart exported ?_ hexport
  rw [hjournal]
  rfl

/-- The programs only make moves. -/
abbrev KeepsMoves (h₀ : Machine) (m : Prog Machine Status α) : Prop :=
  Keeps (After h₀ fun _ => True) m

theorem keeps_loadHandover : KeepsMoves h₀ (onWorld loadHandover) :=
  (triple_loadHandover fun _ _ => trivial).post fun _ _ hh => hh.moved

theorem keeps_rollback : KeepsMoves h₀ (rollback env) := by
  unfold rollback
  refine Triple.bind (R := fun j => After h₀ fun h => h.world.journal = j) ?_ fun j => ?_
  · exact (triple_loadHandover fun _ _ => trivial).post (fun j h hh => hh.imp fun _ hp => hp.2)
  refine .ite (fun _ => .pure fun h hh => hh.moved) fun hidle => ?_
  have hactive : j.phase.idle = false := by simpa using hidle
  refine .bind (Keeps.get.exit fun h hh => hh.moved) fun h' => .bind (Keeps.require.exit fun h hh => hh.moved)
    fun _ => ?_
  refine .bind (R := fun _ => After h₀ (Held fun journal legacy calls => journal = j ∧
    (j.activated = true → legacy.running = true → Call.rollback true true ∈ calls))) ?_ fun _ => ?_
  · refine triple_update (fun h hh => ?_) fun h hh => ⟨hh, fun ha hr => ?_⟩
    · rw [← hh]
      exact .noteRollback
    · have hrunning : h.world.legacy.running = true := hr
      show _ ∈ Call.rollback j.activated h.world.legacy.running :: h.world.calls
      rw [ha, hrunning]
      exact mem_cons_self
  refine .bind (R := fun _ => After h₀ (Held (RollingBack j))) ?_ fun _ => ?_
  · refine triple_write (fun h hh => .journal _ ⟨?_, ?_, ?_, ?_⟩) fun h hh => ⟨rfl, hh.2⟩
    · intro _
      rw [hh.1]
      exact hactive
    · exact fun h => absurd h (by simp)
    · exact fun h => absurd h (by simp [Phase.idle])
    · intro ha
      rw [hh.1]
      exact ha
  refine .bind ((triple_apply_disabled j.target).post (fun _ h hh => hh.imp fun _ hp => hp.1)) fun _ => ?_
  refine .bind (triple_handBackIfActivated j) fun r => ?_
  obtain ⟨exported, n⟩ := r
  refine .bind (triple_apply_disabled j.previous) fun _ => .bind triple_startLegacy fun _ => ?_
  refine .bind (triple_write (T := fun _ => True) (fun h hh => .journal _ ⟨?_, ?_, ?_, ?_⟩) fun _ _ => trivial)
    fun _ => ?_
  · exact fun h => absurd h (by simp [Phase.idle])
  · exact fun h => absurd h (by simp)
  · exact fun _ => hh.2
  · intro ha
    rw [hh.1.1]
    exact ha
  exact triple_write (fun h hh => .archive _) fun _ _ => trivial

theorem keeps_recover : KeepsMoves h₀ (recover env) :=
  .bind keeps_loadHandover fun _ => .ite (fun _ => keeps_rollback) fun _ => .pure

/-! ### Begin -/

/-- A journal in a later phase than `stopping` follows any journal of a takeover, as long as it
does not forget the activation. -/
theorem follows_of_active (hj : j.phase.idle = false) (hphase : j.phase ≠ .stopping)
    (hh : h.world.journal.phase.idle = false)
    (hactivated : j.activated = true ∨ h.world.journal.activated = false) : Follows h j where
  active _ := hh
  stopping h := absurd h hphase
  ended h := by
    rw [hj] at h
    cases h
  activated h := by
    rcases hactivated with h' | h'
    · rw [h'] at h
      cases h
    · exact h'

/-- A step of `begin` that fails is blamed on the journal in memory, which may follow the
stored one. -/
theorem spec_blame {m : Prog Machine Status α} {Q : α → Machine → Prop}
    (hm : Triple (After h₀ P) m Q (After h₀ fun h => Follows h j)) :
    Spec (After h₀ P) (blame j m) Q (fun e => After h₀ fun h => Follows h e.1)
      (Moved h₀) :=
  .rethrow hm (fun _ _ hh => hh) fun _ hh => hh.moved

/-- The stored journal is `j`, and the legacy service is masked and stopped. -/
def Stopped (j : HandoverJournal) (journal : HandoverJournal) (legacy : Legacy) (_ : List Call) :
    Prop :=
  journal = j ∧ legacy.masked = true ∧ legacy.running = false

theorem triple_stopLegacy (hF : ∀ h : Machine, h.world.journal = j → F h) :
    Triple (After h₀ fun h => h.world.journal = j) (onWorld stopLegacy)
      (fun _ => After h₀ (Held (Stopped j))) (After h₀ F) := by
  unfold stopLegacy
  simp only [onWorld_bind]
  refine .bind (triple_attempt (T := fun h => h.world.journal = j ∧ h.world.legacy.masked = true)
    (fun _ _ => .mask) (fun h hh => ⟨hh, rfl⟩) hF fun h hh => hF h hh.1) fun _ => ?_
  refine .bind (triple_attempt (T := Held (Stopped j)) (fun _ _ => .stop)
    (fun h hh => ⟨hh.1, hh.2, rfl⟩) (fun h hh => hF h hh.1) fun h hh => hF h hh.1) fun _ => ?_
  exact triple_fallible fun h hh => hF h hh.1

theorem triple_readLeases (hF : ∀ h, P h → F h) :
    Triple (After h₀ P) (onWorld readLeases) (fun _ => After h₀ P) (After h₀ F) := by
  unfold readLeases
  simp only [onWorld_bind, onWorld_pure]
  exact .bind (triple_fallible hF) fun _ => .bind triple_get fun w => .pure fun h hh =>
    hh.imp fun _ hp => hp.1

/-- While the legacy service is stopped, a journal that follows `j` replaces it. -/
theorem triple_saveStopped {j' : HandoverJournal} (hj : j.phase.idle = false) (hj' : j'.phase.idle = false)
    (hphase : j'.phase ≠ .stopping)
    (hactivated : j'.activated = true ∨ j.activated = false ∧ j'.activated = false) :
    Triple (After h₀ (Held (Stopped j))) (onWorld (saveHandover j'))
      (fun _ => After h₀ (Held (Stopped j'))) (After h₀ fun h => Follows h j') := by
  have hbefore : ∀ h, Held (Stopped j) h → Follows h j' := by
    intro h hh
    refine follows_of_active hj' hphase (by rw [hh.1]; exact hj) ?_
    rw [hh.1]
    exact hactivated.imp_right And.left
  have hafter : ∀ h, Held (Stopped j') h → Follows h j' := by
    intro h hh
    refine follows_of_active hj' hphase (by rw [hh.1]; exact hj') ?_
    rw [hh.1]
    exact hactivated.imp_right And.right
  exact triple_attempt (fun h hh => .journal j' (hbefore h hh)) (fun h hh => ⟨rfl, hh.2⟩) hbefore hafter

theorem spec_takeOver (hj : j.phase = .stopping) (hfresh : j.activated = false) :
    Spec (After h₀ fun h => h.world.journal = j) (takeOver env j) (fun _ => Moved h₀)
      (fun e => After h₀ fun h => Follows h e.1) (Moved h₀) := by
  have hidle : j.phase.idle = false := by
    rw [hj]
    rfl
  have hown : ∀ h : Machine, h.world.journal = j → Follows h j := by
    rintro h rfl
    exact ⟨fun h => h, fun h => h, fun h => absurd h (by simp [hidle]), fun h => h⟩
  -- The journal with the lease file follows whatever is stored from here on.
  have hkeep : ∀ {j1 j2 : HandoverJournal}, j1.phase = .snapshot → j2 = j1 →
      ∀ h, Held (Stopped j1) h → Follows h j2 := by
    rintro j1 j2 hphase rfl h hh
    refine follows_of_active (by rw [hphase]; rfl) (by rw [hphase]; simp) ?_ ?_
    · rw [hh.1, hphase]
      rfl
    · rw [hh.1]
      cases j2.activated <;> simp
  unfold takeOver
  refine .bind (spec_blame (triple_stopLegacy hown)) fun _ => ?_
  refine .bind (spec_blame (triple_readLeases fun h hh => hown h hh.1)) fun raw => ?_
  refine .bind (spec_blame (triple_saveStopped hidle rfl (by simp) (Or.inr ⟨hfresh, hfresh⟩))) fun _ => ?_
  refine .bind (spec_blame (triple_raise (hkeep rfl rfl))) fun doc => ?_
  refine .bind (spec_blame ((triple_transact (fun _ _ hh => hh) (hkeep rfl rfl) _ keyed_import).pre (fun h hh => hh.imp fun _ hp => hp.1))) fun _ => ?_
  refine .bind (spec_blame (triple_saveStopped rfl rfl (by simp) (Or.inl rfl))) fun _ => ?_
  refine .bind (spec_blame ((triple_apply (fun h hh => .target hh.2.1 hh.2.2 (by rw [hh.1]))
    (hkeep rfl rfl)).post (fun _ h hh => hh.imp fun _ hp => hp.1))) fun _ => ?_
  exact spec_blame ((triple_saveStopped rfl rfl (by simp) (Or.inl rfl)).post (fun _ h hh => ⟨hh.1, trivial⟩))

theorem triple_giveUp (j : HandoverJournal) (e : Status) :
    Triple (After h₀ fun h => Follows h j) (giveUp env j e) (fun _ => Moved h₀)
      (Moved h₀) := by
  unfold giveUp
  refine .bind (.ignore (Q := fun _ => Moved h₀) (triple_write
    (fun h hh => .journal _ ⟨hh.active, hh.stopping, hh.ended, hh.activated⟩) fun _ _ => trivial) fun h hh => hh)
    fun _ => ?_
  exact .bind (Keeps.handle keeps_rollback fun _ => .fail) fun _ => Keeps.fail

theorem keeps_raise (x : Except Failure α) : KeepsMoves h₀ (raise x) :=
  (triple_raise fun _ _ => trivial).post fun _ _ hh => hh.moved

theorem triple_openHandover (hj : j.phase = .stopping) (hfresh : j.activated = false) :
    Triple (After h₀ fun h => h.world.journal.phase.idle = true) (onWorld (openHandover j))
      (fun _ => After h₀ fun h => h.world.journal = j) (Moved h₀) :=
  triple_write (fun _ hh => .openJournal j hh hj hfresh) fun _ _ => rfl

theorem keeps_begin (o : Options) (target : Config) (grace : Int) :
    KeepsMoves h₀ (begin o env target grace) := by
  unfold begin
  refine .bind (keeps_raise _) fun _ => .bind .require fun _ => .bind (keeps_raise _) fun _ =>
    .bind .fallible fun _ => .bind .get fun h' => .bind .require fun _ => ?_
  refine Triple.bind (triple_loadHandover fun _ _ => trivial) fun old => ?_
  refine .bind (R := fun _ => After h₀ fun h => h.world.journal.phase.idle = true) ?_ fun _ => ?_
  · refine .require (fun h hh hidle => hh.imp ?_) fun _ hh => hh.moved
    rintro h ⟨-, rfl⟩
    exact hidle
  refine .bind (Keeps.fallible.exit fun _ hh => hh.moved) fun _ => .bind (triple_openHandover rfl rfl) fun _ => ?_
  refine .handle_spec (spec_takeOver rfl rfl) (fun e => ?_) fun _ hh => hh
  exact triple_giveUp e.1 e.2

/-! ### Confirm -/

/-- The stored journal is `j`, which is pending. -/
def IsPending (j : HandoverJournal) (h : Machine) : Prop := h.world.journal = j ∧ j.phase = .pending

theorem keeps_confirm : KeepsMoves h₀ (confirm env) := by
  unfold confirm
  refine Triple.bind (R := fun j => After h₀ fun h => h.world.journal = j) ?_ fun j => ?_
  · exact (triple_loadHandover fun _ _ => trivial).post (fun j h hh => hh.imp fun _ hp => hp.2)
  refine .ite (fun _ => .pure fun h hh => hh.moved) fun _ => ?_
  refine .bind (R := fun _ => After h₀ (IsPending j)) ?_ fun _ => ?_
  · refine .require (fun h hh hpending => ⟨hh.1, hh.2, ?_⟩) fun h hh => hh.moved
    simp only [Bool.and_eq_true, decide_eq_true_eq] at hpending
    exact hpending.1
  refine .bind (R := fun _ => After h₀ (IsPending j)) ?_ fun _ => ?_
  · unfold checkEvidence
    split
    · simp only [onWorld_bind]
      refine .bind (triple_view (fun _ _ hh => hh) (fun _ _ => trivial) _) fun missing => ?_
      unfold Prog.require
      split
      · rw [onWorld_pure]
        exact .pure fun h hh => hh.imp fun _ hp => hp.1
      · intro h hh r hr
        obtain rfl := mem_singleton.mp hr
        exact hh.moved
    · rw [onWorld_pure]
      exact .pure fun _ hh => hh
  refine .bind (Keeps.fallible.exit fun h hh => hh.moved) fun _ => ?_
  have hfollows : ∀ j' : HandoverJournal, j'.phase.idle = false → j'.phase ≠ .stopping →
      j'.activated = j.activated → ∀ h, IsPending j h → Follows h j' := by
    rintro j' hidle hphase hactivated h ⟨hjournal, hpending⟩
    refine follows_of_active hidle hphase (by rw [hjournal, hpending]; rfl) ?_
    rw [hjournal, hactivated]
    cases j.activated <;> simp
  refine .bind (R := fun _ => After h₀ (IsPending j)) ?_ fun _ => ?_
  · unfold checkProbes
    split
    · simp only [onWorld_bind]
      refine .bind (triple_write (T := IsPending j) (fun h hh => .journal j (hfollows j ?_ ?_ rfl h hh))
        fun h hh => ⟨rfl, hh.2⟩) fun _ => triple_fallible fun _ _ => trivial
      · rw [hh.2]
        rfl
      · rw [hh.2]
        simp
    · rw [onWorld_pure]
      exact .pure fun _ hh => hh
  refine .bind (Keeps.require.exit fun h hh => hh.moved) fun _ => ?_
  refine .bind (triple_write (T := fun _ => True) (fun h hh => .journal _ (hfollows
    { j with phase := .confirmed, deadline := 0 } rfl (by simp) rfl h hh)) fun _ _ => trivial) fun _ => ?_
  exact triple_write (fun h hh => .archive _) fun _ _ => trivial

/-! ### Boot and watcher -/

theorem keeps_rolledBack : KeepsMoves h₀ rolledBack :=
  .handle (.bind keeps_loadHandover fun _ => .pure) fun _ => .pure

theorem keeps_recoverHandover (force : Bool) : KeepsMoves h₀ (recoverHandover env force) := by
  unfold recoverHandover
  refine .bind keeps_loadHandover fun j => .ite (fun _ => .pure) fun _ => ?_
  refine .bind ?_ fun _ => keeps_rolledBack
  exact .ite (fun _ => keeps_rollback) fun _ => keeps_recover

theorem keeps_ignoreRecovery :
    KeepsMoves h₀ (Prog.handle (recoverHandover env false) fun _ => (pure false : Prog Machine Status Bool)) :=
  .handle (keeps_recoverHandover false) fun _ => .pure

theorem parseConfig_eq {raw : Option Config} (h : parseConfig raw = .ok c) : raw.getD {} = c := by
  unfold parseConfig at h
  cases hvalid : (raw.getD {}).validate with
  | error =>
    rw [hvalid] at h
    cases h
  | ok =>
    rw [hvalid] at h
    exact Except.ok.inj h

/-- Reading the file gives a configuration that may be applied. -/
theorem triple_parseFile (raw : Option Config) :
    Triple (After h₀ fun h => h.world.file = raw) (raise (parseConfig raw))
      (fun c => After h₀ fun h => h.world.file = raw ∧ h.world.file.getD {} = c)
      (Moved h₀) := by
  refine (triple_raise fun _ _ => trivial).post (fun c h hh => ?_)
  exact ⟨hh.1, hh.2.1, by rw [hh.2.1]; exact parseConfig_eq hh.2.2⟩

theorem triple_managerApply (c : Config) :
    Triple (After h₀ fun h => h.world.file.getD {} = c) (onWorld (managerApply env i c))
      (fun _ => Moved h₀) (Moved h₀) := by
  unfold managerApply
  simp only [onWorld_bind]
  refine .bind (triple_checkAndBind (fun _ _ hh => hh) (fun _ _ => trivial) c) fun _ => ?_
  exact triple_update (fun h hh => .config c (.file hh)) fun _ _ => trivial

theorem triple_loadFile' :
    Triple (Moved h₀) (onWorld loadFile)
      (fun raw => After h₀ fun h => h.world.file = raw) (Moved h₀) :=
  (triple_loadFile fun _ _ => trivial).post (fun _ _ hh => hh.imp fun _ hp => hp.2)

theorem keeps_applyAfterRollback (e : Status) : KeepsMoves h₀ (applyAfterRollback env e) := by
  unfold applyAfterRollback
  refine .bind (keeps_recoverHandover true) fun back => .ite (fun _ => ?_) fun _ => .fail
  refine Triple.bind triple_loadFile' fun raw => .bind (triple_parseFile raw) fun c => ?_
  refine .bind ((triple_managerApply c).pre (fun _ hh => hh.imp fun _ hp => hp.2)) fun _ => ?_
  exact .pure fun _ hh => hh

theorem triple_applyAtBoot (raw : Option Config) (c : Config) :
    Triple (After h₀ fun h => h.world.file.getD {} = c) (applyAtBoot env raw c)
      (fun _ => Moved h₀) (Moved h₀) :=
  .handle (.bind (triple_managerApply c) fun _ => .pure fun _ hh => hh)
    (fun e => keeps_applyAfterRollback e) fun _ hh => hh

theorem keeps_loaded (raw : Option Config) :
    KeepsMoves h₀ (Prog.update fun h : Machine => h.withWorld { h.world with loaded := raw }) :=
  .update fun _ hh => ⟨hh.1.snoc (.loaded raw), trivial⟩

theorem keeps_startAddressbook : KeepsMoves h₀ (startAddressbook env) := by
  unfold startAddressbook
  refine .bind .fallible fun _ => Triple.bind triple_loadFile' fun raw => ?_
  refine .bind ((keeps_raise _).pre fun _ hh => hh.moved) fun _ => ?_
  refine Keeps.bind .fallible fun _ => .bind keeps_ignoreRecovery fun _ => ?_
  refine Triple.bind triple_loadFile' fun raw => .bind (triple_parseFile raw) fun c => ?_
  refine .bind ((triple_applyAtBoot raw c).pre (fun _ hh => hh.imp fun _ hp => hp.2)) fun raw => keeps_loaded raw

theorem keeps_watch : KeepsMoves h₀ (watch env) := by
  unfold watch
  refine .bind keeps_ignoreRecovery fun _ => Triple.bind triple_loadFile' fun raw => ?_
  refine .bind (R := fun _ => After h₀ fun h => h.world.file = raw) (.get fun _ hh => hh) fun h' => ?_
  refine .ite (fun _ => .pure fun _ hh => hh.moved) fun _ => ?_
  refine .bind (triple_parseFile raw) fun c => ?_
  refine .bind ((triple_managerApply c).pre (fun _ hh => hh.imp fun _ hp => hp.2)) fun _ => keeps_loaded raw

/-! ### The configuration record -/

/-- Where no lease is pending, the record says what is confirmed. -/
theorem triple_loadDomain (hn : NoLease h₀) :
    Triple (Moved h₀) (loadDomain (dhcp env))
      (fun st => After h₀ fun h => st.pending = none ∧ confirmedConfig h = st.confirmed)
      (Moved h₀) := by
  refine .bind (Keeps.fallible (I := Moved h₀)) fun _ => ?_
  refine .bind (R := fun h' h => After h₀ (fun _ => True) h ∧ h' = h) (.get fun _ hh => ⟨hh, rfl⟩)
    fun h' => .pure fun h hh => ?_
  obtain ⟨hh, rfl⟩ := hh
  exact ⟨hh.1, pending_of_noLease (noLease_moves hh.1 hn) env, (confirmed_domain env h').symm⟩

theorem keeps_recoverExpired (hn : NoLease h₀) (now : Int) :
    KeepsMoves h₀ (Rpc.recoverExpired (dhcp env) now) := by
  unfold Rpc.recoverExpired
  refine Triple.bind (triple_loadDomain hn) fun st => ?_
  cases hpending : st.pending with
  | none => exact .pure fun _ hh => hh.moved
  | some =>
    intro h hh
    cases hh.2.1

theorem keeps_recoverDomain (hn : NoLease h₀) : KeepsMoves h₀ (Rpc.recoverDomain (dhcp env) "") := by
  unfold Rpc.recoverDomain
  refine Triple.bind (triple_loadDomain hn) fun st => ?_
  cases hpending : st.pending with
  | some =>
    intro h hh
    cases hh.2.1
  | none =>
    simp only [if_true]
    show Triple _ (onWorld (restoreDHCPConfig st.confirmed)) _ _
    unfold restoreDHCPConfig
    simp only [onWorld_bind, onWorld_raise]
    refine .bind (triple_raise fun _ _ => trivial) fun c => ?_
    refine triple_write (fun h hh => .file c (.confirmed ?_)) fun _ _ => trivial
    rw [hh.1.2]
    exact parseConfig_eq hh.2

theorem keeps_boot (hn : NoLease h₀) : KeepsMoves h₀ (boot env) := by
  refine .bind (keeps_recoverDomain hn) fun _ => .bind keeps_startAddressbook fun _ => ?_
  exact .update fun _ hh => ⟨hh.1.snoc .serve, trivial⟩

end Rules

/-! ### Steps -/

/-- Every end of a program that only makes moves. -/
theorem moves_of_end {m : Prog Machine Status α} (hm : KeepsMoves h m) {r : Outcome Status α × Machine}
    (hr : r ∈ m h) : Moves h r.2 :=
  (hm.every_end ⟨.refl, trivial⟩ hr).1

theorem moves_settle {r : Outcome Status α × Machine} (hr : Moves h r.2) : Moves h (settle r) := by
  obtain ⟨o, h'⟩ := r
  cases o with
  | ok => exact hr
  | error => exact hr
  | crash => exact hr.snoc .die

theorem moves_settleBoot {r : Outcome Status α × Machine} (hr : Moves h r.2) : Moves h (settleBoot r) := by
  obtain ⟨o, h'⟩ := r
  cases o with
  | ok => exact hr
  | error => exact hr.snoc .die
  | crash => exact hr.snoc .die

/-- Every step of the host is a sequence of moves. -/
theorem moves_of_hostStep {h' : Machine} (hn : NoLease h) (hstep : HostStep h h') : Moves h h' := by
  cases hstep with
  | begin o env target grace up run =>
    exact moves_settle (moves_of_end
      (.bind (keeps_recoverExpired hn _) fun _ => keeps_begin o target grace) run)
  | confirm env up run => exact moves_settle (moves_of_end keeps_confirm run)
  | rollback env up run => exact moves_settle (moves_of_end keeps_rollback run)
  | recover env up run => exact moves_settle (moves_of_end keeps_recover run)
  | watch env up run => exact moves_settle (moves_of_end keeps_watch run)
  | boot env down run => exact moves_settleBoot (moves_of_end (keeps_boot hn) run)
  | client s => exact .single (.ledger _ fun hk => keyed_apply hk s.time s.op)
  | die => exact .single .die
  | reboot running masked => exact .single (.reboot running masked)
  | legacyWrites text => exact .single (.legacyWrites text)
  | legacyStops => exact .single .stop

/-- The rule for invariants of takeovers: it is enough to look at single moves. -/
theorem invariant_of_reached {I : Machine → Prop}
    (hstart : ∀ file confirmed legacy, (∀ c ∈ file, Off c) → (∀ c ∈ confirmed, Off c) →
      I (freshHost file confirmed legacy)) (hmove : ∀ h h', Move h h' → I h → I h') (hr : Reached h) : I h := by
  have hboth : NoLease h ∧ I h := by
    induction hr with
    | start file confirmed legacy fileOff confirmedOff =>
      refine ⟨?_, hstart file confirmed legacy fileOff confirmedOff⟩
      intro st hst
      obtain ⟨c, -, rfl⟩ := Option.map_eq_some_iff.mp hst
      rfl
    | step before next ih =>
      have hmoves := moves_of_hostStep ih.1 next
      exact ⟨noLease_moves hmoves ih.1, invariant_of_run ih.2 hmove hmoves⟩
  exact hboth.2

end Ghostd.Proofs.Handover
