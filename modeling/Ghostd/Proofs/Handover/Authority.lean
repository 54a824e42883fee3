import Ghostd.Proofs.Handover.Protocol

/-!
# `Ghostd.Proofs.Handover.Authority`: never two allocators at once

While the legacy service runs or could be started by a reboot, and before a takeover has its
lease file, every scope is off in the manager, in the configuration file and in the record
(`Quiet`). A move that stores a scope that is on needs a service that is masked and stopped,
and a move that unmasks or starts the service needs every scope off everywhere.
`single_authority` is the consequence for the manager.
-/

set_option autoImplicit false

namespace Ghostd.Proofs.Handover

open Ghostd.Lib Ghostd.State Ghostd.Addressbook Ghostd.Handover

/-- The legacy service runs or can come back, or the takeover has not read the lease file. -/
def Yields (h : Machine) : Prop :=
  h.world.legacy.masked = false ∨ h.world.legacy.running = true ∨
    h.world.journal.phase.idle = true ∨ h.world.journal.phase = .stopping

/-- Then no scope is on anywhere. -/
def Quiet (h : Machine) : Prop := Yields h → Disarmed h

theorem off_empty : Off {} := fun _ hs => by cases hs

theorem off_getD {c : Option Config} (hc : ∀ c' ∈ c, Off c') : Off (c.getD {}) := by
  cases c with
  | none => exact off_empty
  | some c => exact hc c rfl

/-- While ghostd yields, only configurations with every scope off are stored. -/
theorem off_of_source {h : Machine} {c : Config} (hsource : Source h c) (hyields : Yields h)
    (hdisarmed : Disarmed h) : Off c := by
  cases hsource with
  | off hc => exact hc
  | target masked stopped phase =>
    rcases hyields with h' | h' | h' | h'
    · rw [masked] at h'
      cases h'
    · rw [stopped] at h'
      cases h'
    · rw [phase] at h'
      cases h'
    · rw [phase] at h'
      cases h'
  | file same =>
    rw [← same]
    exact off_getD hdisarmed.2.1
  | confirmed same =>
    rw [← same]
    exact off_getD hdisarmed.2.2

theorem quiet_move {h h' : Machine} (hmove : Move h h') (hq : Quiet h) : Quiet h' := by
  cases hmove with
  | openJournal j idle => exact fun _ => hq (Or.inr (Or.inr (Or.inl idle)))
  | journal j follows =>
    intro hyields
    show Disarmed h
    rcases hyields with h' | h' | h' | h'
    · exact hq (Or.inl h')
    · exact hq (Or.inr (Or.inl h'))
    · exact follows.ended h'
    · exact hq (Or.inr (Or.inr (Or.inr (follows.stopping h'))))
  | record env c source =>
    intro hyields
    obtain ⟨hconfig, hfile, hconfirmed⟩ := hq hyields
    refine ⟨hconfig, hfile, ?_⟩
    rintro c' ⟨⟩
    exact off_of_source source hyields ⟨hconfig, hfile, hconfirmed⟩
  | file c source =>
    intro hyields
    have hdisarmed := hq hyields
    have hc := off_of_source source hyields hdisarmed
    refine ⟨hdisarmed.1, ?_, ?_⟩
    · rintro c' ⟨⟩
      exact hc
    · -- Without a record the file is also what boot restores.
      have hconfirmed := hdisarmed.2.2
      unfold confirmedConfig at hconfirmed ⊢
      show ∀ c' ∈ h.record.elim (some c) (·.confirmed), Off c'
      cases hrecord : h.record with
      | none =>
        rintro c' ⟨⟩
        exact hc
      | some =>
        rw [hrecord] at hconfirmed
        exact hconfirmed
  | config c source =>
    intro hyields
    have hdisarmed := hq hyields
    exact ⟨off_of_source source hyields hdisarmed, hdisarmed.2.1, hdisarmed.2.2⟩
  | mask =>
    intro hyields
    rcases hyields with h' | h'
    · cases h'
    · exact hq (Or.inr h')
  | stop =>
    intro hyields
    rcases hyields with h' | h' | h'
    · exact hq (Or.inl h')
    · cases h'
    · exact hq (Or.inr (Or.inr h'))
  | unmask off => exact fun _ => off
  | startService off => exact fun _ => off
  | die =>
    intro hyields
    exact ⟨off_empty, (hq hyields).2⟩
  | reboot running masked =>
    intro hyields
    refine ⟨off_empty, (hq ?_).2⟩
    rcases hyields with h' | h' | h'
    · exact Or.inl h'
    · exact Or.inl (masked h')
    · exact Or.inr (Or.inr h')
  | _ => exact hq

theorem quiet_of_reached {h : Machine} (hr : Reached h) : Quiet h := by
  refine invariant_of_reached ?_ (fun _ _ hmove => quiet_move hmove) hr
  intro file confirmed legacy hfile hconfirmed _
  refine ⟨off_empty, hfile, ?_⟩
  cases confirmed with
  | none => exact hfile
  | some => exact hconfirmed

/-- In no state of any run is a scope of ghostd on while the legacy allocator runs. -/
theorem single_authority {h : Machine} (hr : Reached h) :
    ¬ (h.world.legacy.running = true ∧ ∃ s ∈ h.world.config.scopes, s.enabled = true) := by
  rintro ⟨hrunning, s, hs, henabled⟩
  have hoff := (quiet_of_reached hr (Or.inr (Or.inl hrunning))).1 s hs
  rw [henabled] at hoff
  cases hoff

/-! ### A takeover -/

/-- One IPv4 scope, as the target of a takeover. -/
def lanTarget : Config where
  scopes :=
    [{ id := "lan", interface := "eth0", subnet := "10.0.0.0/24", server := "10.0.0.1",
       start := "10.0.0.5", endAddr := "10.0.0.6", router := "10.0.0.1", zone := "lan.home",
       leaseSeconds := 3600, enabled := true }]

/-- An instant without traffic. -/
def still (t : Int) : Env := ⟨fun _ => t, fun _ => []⟩

/-- A host on which the legacy allocator serves, with one lease. -/
def legacyHost : Machine :=
  freshHost none none
    { masked := false, running := true, leases := "7200 02:00:00:00:00:01 10.0.0.5 * *\n" }

/-- The daemon has started. -/
def bootedHost : Machine := settleBoot (Prog.path (boot (still 0)) 0 legacyHost)

/-- The takeover is pending. -/
def takenHost : Machine :=
  settle (Prog.path (beginAction {} (still 0) lanTarget 60) 0 bootedHost)

theorem reached_takenHost : Reached takenHost := by
  have hbooted : Reached bootedHost :=
    .step (.start none none _ (fun _ h => by cases h) fun _ h => by cases h)
      (.boot (still 0) rfl (Prog.path_mem (by decide +kernel)))
  exact .step hbooted (.begin {} (still 0) lanTarget 60 (by decide +kernel)
    (Prog.path_mem (by decide +kernel)))

/-- After the takeover the scope is on, and the legacy allocator is stopped. -/
theorem single_authority_takenHost :
    (takenHost.world.config.scopes.any (·.enabled)) = true ∧
      ¬ (takenHost.world.legacy.running = true ∧
        ∃ s ∈ takenHost.world.config.scopes, s.enabled = true) :=
  ⟨by decide +kernel, single_authority reached_takenHost⟩

end Ghostd.Proofs.Handover
